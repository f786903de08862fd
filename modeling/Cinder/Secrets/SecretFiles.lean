import Mathlib.Data.List.TakeWhile
import Cinder.Secrets.SecureStore
set_option autoImplicit false

namespace Cinder.Secrets
open Cinder.Host Cinder.Storage

theorem fileStem_cases (path : String) : fileStem path = path ∨
    ∃ extension, '.' ∉ extension.toList ∧ path = fileStem path ++ "." ++ extension := by
  have hsplit := List.takeWhile_append_dropWhile (p := (· ≠ '.')) (l := path.toList.reverse)
  unfold fileStem
  split
  · next x c rest hdrop =>
    right
    have hx : x = '.' := by
      have hhead := List.head?_dropWhile_not (· ≠ '.') path.toList.reverse
      rw [hdrop] at hhead
      simpa using hhead
    refine ⟨String.ofList (path.toList.reverse.takeWhile (· ≠ '.')).reverse, ?_, ?_⟩
    · rw [String.toList_ofList, List.mem_reverse]
      intro hmem
      simpa using List.mem_takeWhile_imp hmem
    · have hrev := congrArg List.reverse hsplit
      rw [hdrop, hx, List.reverse_append, List.reverse_reverse, List.reverse_cons] at hrev
      rw [← String.toList_inj]
      simp only [String.toList_append, String.toList_ofList]
      exact hrev.symm
  · exact .inl rfl

theorem withExtension_ne (path : String) {extension : String} (h : '.' ∈ extension.toList) :
    withExtension path extension ≠ path := by
  intro heq
  rcases fileStem_cases path with hstem | ⟨ext, hext, hpath⟩
  · rw [withExtension, hstem] at heq
    have hlen := congrArg String.length heq
    simp only [String.length_append] at hlen
    have hone : ".".length = 1 := rfl
    omega
  · rw [withExtension] at heq
    have hsame := (String.append_right_inj _).mp (heq.trans hpath)
    exact hext (hsame ▸ h)

theorem fileStem_secretPath {name : String} (h : name ≠ "") : fileStem (secretPath name) = name := by
  have hne : name.toList.reverse ≠ [] := by simpa using h
  obtain ⟨c, rest, hcons⟩ := List.exists_cons_of_ne_nil hne
  have hname : name = String.ofList (c :: rest).reverse := by
    rw [← hcons, List.reverse_reverse, String.ofList_toList]
  have hdrop : (secretPath name).toList.reverse.dropWhile (· ≠ '.') = '.' :: c :: rest := by
    rw [secretPath, String.toList_append, List.reverse_append, hcons]
    rfl
  rw [fileStem, hdrop]
  exact hname.symm

theorem temporaryPath_ne (path : String) : temporaryPath path ≠ path :=
  withExtension_ne path (by decide)

theorem backupPath_ne (path : String) : backupPath path ≠ path :=
  withExtension_ne path (by decide)

theorem temporaryPath_ne_backupPath (path : String) : temporaryPath path ≠ backupPath path := by
  intro h
  have hext := (String.append_right_inj _).mp h
  exact absurd hext (by decide)

def Apart (p q : String) : Prop := ∀ f ∈ filesOf p, f ∉ filesOf q

instance (p q : String) : Decidable (Apart p q) :=
  inferInstanceAs (Decidable (∀ f ∈ filesOf p, f ∉ filesOf q))

theorem Apart.symm {p q : String} (h : Apart p q) : Apart q p :=
  fun f hf hf' => h f hf' hf

theorem last_append (s : String) {t : String} (h : t ≠ "") :
    (s ++ t).toList.getLast? = t.toList.getLast? := by
  have hne : t.toList ≠ [] := by simpa using h
  rw [String.toList_append, List.getLast?_append_of_ne_nil _ hne]

theorem last_files (name : String) :
    (secretPath name).toList.getLast? = some 'e' ∧
      (temporaryPath (secretPath name)).toList.getLast? = some 'p' ∧
      (backupPath (secretPath name)).toList.getLast? = some 'k' :=
  ⟨last_append _ (by decide), last_append _ (by decide), last_append _ (by decide)⟩

theorem secretPath_inj {name name' : String} (h : secretPath name = secretPath name') :
    name = name' :=
  (String.append_left_inj _).mp h

theorem apart_secretPath {name name' : String} (hne : name ≠ "") (hne' : name' ≠ "")
    (h : name ≠ name') : Apart (secretPath name) (secretPath name') := by
  intro f hf hf'
  obtain ⟨hp, ht, hb⟩ := last_files name
  obtain ⟨hp', ht', hb'⟩ := last_files name'
  have hstem : ∀ e, withExtension (secretPath name) e ≠ withExtension (secretPath name') e := by
    intro e heq
    have hcut := (String.append_left_inj _).mp ((String.append_left_inj _).mp heq)
    rw [fileStem_secretPath hne, fileStem_secretPath hne'] at hcut
    exact h hcut
  simp only [filesOf, List.mem_cons, List.not_mem_nil, or_false] at hf hf'
  rcases hf with rfl | rfl | rfl <;> rcases hf' with heq | heq | heq
  · exact h (secretPath_inj heq)
  · rw [heq, ht'] at hp; cases hp
  · rw [heq, hb'] at hp; cases hp
  · rw [heq, hp'] at ht; cases ht
  · exact hstem _ heq
  · rw [heq, hb'] at ht; cases ht
  · rw [heq, hp'] at hb; cases hb
  · rw [heq, ht'] at hb; cases hb
  · exact hstem _ heq

/-- Only a value of the name `local-secrets` shares files with the key. -/
theorem apart_localSecrets {name : String} (hne : name ≠ "") (h : name ≠ "local-secrets") :
    Apart localSecrets (secretPath name) := by
  intro f hf hf'
  obtain ⟨hp, ht, hb⟩ := last_files name
  have hstem : ∀ e, withExtension localSecrets e ≠ withExtension (secretPath name) e := by
    intro e heq
    have hcut := (String.append_left_inj _).mp ((String.append_left_inj _).mp heq)
    rw [fileStem_secretPath hne] at hcut
    exact h (hcut.symm.trans (by decide))
  simp only [filesOf, List.mem_cons, List.not_mem_nil, or_false] at hf hf'
  rcases hf with rfl | rfl | rfl <;> rcases hf' with heq | heq | heq
  · rw [← heq] at hp; exact absurd hp (by decide)
  · rw [← heq] at ht; exact absurd ht (by decide)
  · rw [← heq] at hb; exact absurd hb (by decide)
  · rw [← heq] at hp; exact absurd hp (by decide)
  · exact hstem _ heq
  · rw [← heq] at hb; exact absurd hb (by decide)
  · rw [← heq] at hp; exact absurd hp (by decide)
  · rw [← heq] at ht; exact absurd ht (by decide)
  · exact hstem _ heq

/-- What a call must not meet while only the backup of a path is there: the
backup cannot be read, or the machine stops or the renaming fails between the
removal of the backup and the end of the renaming. `start` is the disk when the
call began. -/
def Spared (start : Disk String UInt8) (path : String) (e : FileEvent String UInt8) : Prop :=
  start path = none → start (backupPath path) ≠ none →
    ¬(e.op = .read (backupPath path) ∧ e.fate.isFailure = true) ∧
    (e.before path = none → e.before (backupPath path) = none → e.fate.isCrash = false ∧
      ¬(e.op = .rename (temporaryPath path) path ∧ e.fate.isFailure = true))

instance (start : Disk String UInt8) (path : String) (e : FileEvent String UInt8) :
    Decidable (Spared start path e) :=
  inferInstanceAs (Decidable (_ → _ → ¬(_ ∧ _) ∧ (_ → _ → _ ∧ ¬(_ ∧ _))))

def OnlyFiles (path : String) (d d' : Disk String UInt8) : Prop :=
  ∀ f, f ∉ filesOf path → d' f = d f

/-- What is on the disk after `contents` were to replace what is at a path. -/
structure Replaced (path : String) (contents : Bytes) (d : Disk String UInt8) (clean : Bool)
    (result : Option (Except SecureStoreError Unit)) (d' : Disk String UInt8) : Prop where
  frame : OnlyFiles path d d'
  primary : ∀ x, d' path = some x → x = contents ∨ d path = some x ∨ d (backupPath path) = some x
  backup : ∀ x, d' (backupPath path) = some x → d path = some x ∨ d (backupPath path) = some x
  kept : d path ≠ none ∨ d (backupPath path) ≠ none →
    d' path ≠ none ∨ d' (backupPath path) ≠ none
  ok : result = some (.ok ()) → d' path = some contents ∧
    (clean = true → d' (backupPath path) = none)
  error : ∀ e, result = some (.error e) → clean = false ∧ ∃ x, e = .io x

section Specs
variable {G : FileEvent String UInt8 → Prop} {d : Disk String UInt8} {path : String}

structure Wrote (temporary : String) (contents : Bytes) (d : Disk String UInt8) (clean : Bool)
    (result : Option (Except SecureStoreError Unit)) (d' : Disk String UInt8) : Prop where
  frame : ∀ f, f ≠ temporary → d' f = d f
  ok : result = some (.ok ()) → d' temporary = some contents
  error : ∀ e, result = some (.error e) → clean = false ∧ ∃ x, e = .io x

theorem Wrote.stop {temporary : String} {contents : Bytes} {d' : Disk String UInt8}
    (h : ∀ f, f ≠ temporary → d' f = d f) :
    Wrote temporary contents d false none d' ∧
      ∀ x, Wrote temporary contents d false (some (.error (.io x))) d' :=
  ⟨⟨h, by simp, by simp⟩, fun x => ⟨h, by simp, by simp⟩⟩

theorem set_frame {temporary : String} {d' : Disk String UInt8}
    (h : ∀ f, f ≠ temporary → d' f = d f) (x : Option Bytes) :
    ∀ f, f ≠ temporary → d'.set temporary x f = d f :=
  fun f hf => (Disk.set_of_ne hf).trans (h f hf)

/-- Unless something went wrong before, only a failing operation stops the
temporary file from being written. -/
theorem createTemporary_spec {temporary : String} (contents : Bytes) {d' : Disk String UInt8}
    (h : ∀ f, f ≠ temporary → d' f = d f) (clean : Bool)
    (hnone : clean = true → d' temporary = none) :
    (do
      Script.act (.createNew temporary) .io
      Script.act (.writeAll temporary contents) .io
      Script.act (.syncAll temporary) .io : Secure Unit).Ends G d'
        fun c => Wrote temporary contents d (clean && c) := by
  refine .act (fun _ => ?_) (fun _ => ?_) (fun r hr => ?_) (fun x hx => ?_)
  · rw [Bool.and_false]
    exact (Wrote.stop h).1
  · rw [Bool.and_false]
    exact (Wrote.stop h).2 _
  · have h1 := set_frame h (some [])
    have hcreate : FileOp.perform d' (.createNew temporary) =
        (.ok [], d'.set temporary (some [])) := by
      simp only [FileOp.perform] at hr ⊢
      split at hr
      · cases hr
      · next habsent => rw [if_neg habsent]
    rw [hcreate]
    refine .act (fun n => ?_) (fun n => ?_) (fun r _ => ?_) (fun x hx => by cases hx)
    · rw [Bool.and_false]
      exact (Wrote.stop (set_frame h1 _)).1
    · rw [Bool.and_false]
      exact (Wrote.stop (set_frame h1 _)).2 _
    · have h2 := set_frame h1 (some contents)
      rw [← Script.bind_ret (Script.act _ _)]
      refine .act (fun n => ?_) (fun n => ?_) (fun r _ => ?_) (fun x hx => by cases hx)
      · rw [Bool.and_false]
        exact (Wrote.stop (set_frame h2 _)).1
      · rw [Bool.and_false]
        exact (Wrote.stop (set_frame h2 _)).2 _
      · refine ⟨⟨h2, fun _ => Disk.set_self _ _ _, by simp⟩, ?_⟩
        show Wrote temporary contents d (clean && false) none _
        rw [Bool.and_false]
        exact (Wrote.stop h2).1
  · have hclean : clean = false := by
      cases clean with
      | false => rfl
      | true =>
        simp [FileOp.perform, hnone rfl] at hx
    have hsame : (FileOp.perform d' (.createNew temporary)).2 = d' := by
      simp only [FileOp.perform] at hx ⊢
      split at hx
      · next hthere => rw [if_pos hthere]
      · cases hx
    rw [hsame, hclean]
    exact ⟨(Wrote.stop h).2 x, (Wrote.stop h).1⟩

theorem writeTemporary_spec (temporary : String) (contents : Bytes) :
    (writeTemporary temporary contents).Ends G d (Wrote temporary contents d) := by
  refine .attempt (fun n _ => ?_) (fun n _ => ?_) ?_
  · exact (Wrote.stop fun _ _ => rfl).1
  · exact createTemporary_spec contents (fun _ _ => rfl) false (by simp)
  · exact createTemporary_spec contents (set_frame (fun _ _ => rfl) none) true
      fun _ => Disk.set_self _ _ _

theorem OnlyFiles.set {d' : Disk String UInt8} (h : OnlyFiles path d d') {f : String}
    (hf : f ∈ filesOf path) (x : Option Bytes) : OnlyFiles path d (d'.set f x) := by
  intro g hg
  have hne : g ≠ f := fun heq => hg (heq ▸ hf)
  rw [Disk.set_of_ne hne, h g hg]

/-- Halfway through a replacement: both places hold what one of them held, the
backup place nothing new, and one of them something if one of them did. -/
structure Halfway (path : String) (contents : Bytes) (d d' : Disk String UInt8) : Prop where
  frame : OnlyFiles path d d'
  primary : d' path = none ∨ d' path = some contents ∨ d' path = d path ∨
    d' path = d (backupPath path)
  backup : d' (backupPath path) = none ∨ d' (backupPath path) = d path ∨
    d' (backupPath path) = d (backupPath path)
  kept : d path ≠ none ∨ d (backupPath path) ≠ none →
    d' path ≠ none ∨ d' (backupPath path) ≠ none

theorem Halfway.replaced {contents : Bytes} {d' : Disk String UInt8} {c : Bool}
    {r : Option (Except SecureStoreError Unit)} (h : Halfway path contents d d')
    (hok : r = some (.ok ()) → d' path = some contents ∧
      (c = true → d' (backupPath path) = none))
    (herror : ∀ e, r = some (.error e) → c = false ∧ ∃ x, e = .io x) :
    Replaced path contents d c r d' where
  frame := h.frame
  primary x hx := by
    rcases h.primary with hp | hp | hp | hp <;> rw [hp] at hx
    · cases hx
    · exact .inl (Option.some.inj hx).symm
    · exact .inr (.inl hx)
    · exact .inr (.inr hx)
  backup x hx := by
    rcases h.backup with hb | hb | hb <;> rw [hb] at hx
    · cases hx
    · exact .inl hx
    · exact .inr hx
  kept := h.kept
  ok := hok
  error := herror

theorem Halfway.stop {contents : Bytes} {d' : Disk String UInt8}
    (h : Halfway path contents d d') : Replaced path contents d false none d' ∧
      ∀ x, Replaced path contents d false (some (.error (.io x))) d' :=
  ⟨h.replaced (by simp) (by simp), fun x => h.replaced (by simp) (by simp)⟩

/-- Before the renaming: the new contents are in the temporary file, and the old
ones in their place or in the backup's. -/
structure Aside (path : String) (contents : Bytes) (d d' : Disk String UInt8) : Prop where
  frame : OnlyFiles path d d'
  temporary : d' (temporaryPath path) = some contents
  places : d' path = none ∧ d path ≠ none ∧ d' (backupPath path) = d path ∨
    d' path = d path ∧ d' (backupPath path) = d (backupPath path) ∨
    d' path = d path ∧ d' (backupPath path) = none

theorem Aside.halfway {contents : Bytes} {d' : Disk String UInt8}
    (h : Aside path contents d d')
    (hkept : d path = none → d (backupPath path) ≠ none → d' path = none →
      d' (backupPath path) ≠ none) : Halfway path contents d d' := by
  have hkept' : d path ≠ none ∨ d (backupPath path) ≠ none →
      d' path ≠ none ∨ d' (backupPath path) ≠ none := by
    intro hsome
    by_cases hnone : d' path = none
    · right
      rcases h.places with ⟨-, hp, hb⟩ | ⟨hp, hb⟩ | ⟨hp, hb⟩
      · rwa [hb]
      · rw [hp] at hnone
        exact hkept hnone (hsome.resolve_left (by simp [hnone])) (by rw [hp, hnone])
      · have hgone := hp.symm.trans hnone
        exact hkept hgone (hsome.resolve_left (by simp [hgone])) hnone
    · exact .inl hnone
  rcases h.places with ⟨hp, -, hb⟩ | ⟨hp, hb⟩ | ⟨hp, hb⟩
  · exact ⟨h.frame, .inl hp, .inr (.inl hb), hkept'⟩
  · exact ⟨h.frame, .inr (.inr (.inl hp)), .inr (.inr hb), hkept'⟩
  · exact ⟨h.frame, .inr (.inr (.inl hp)), .inl hb, hkept'⟩

theorem mem_files (path : String) : path ∈ filesOf path ∧ temporaryPath path ∈ filesOf path ∧
    backupPath path ∈ filesOf path := by
  simp [filesOf]

theorem Halfway.restored {contents : Bytes} {d' : Disk String UInt8}
    (h : Halfway path contents d d') :
    Halfway path contents d (FileOp.perform d' (.rename (backupPath path) path)).2 := by
  obtain ⟨hmem, -, hmemB⟩ := mem_files path
  simp only [FileOp.perform]
  split
  · next hsome =>
    dsimp only
    have hpath : ((d'.set path (d' (backupPath path))).set (backupPath path) none) path =
        d' (backupPath path) := by
      rw [Disk.set_of_ne (backupPath_ne path).symm, Disk.set_self]
    refine ⟨(h.frame.set hmem _).set hmemB _, ?_, .inl (Disk.set_self _ _ _), fun _ => .inl ?_⟩
    · rw [hpath]
      rcases h.backup with hb | hb | hb
      · exact .inl hb
      · exact .inr (.inr (.inl hb))
      · exact .inr (.inr (.inr hb))
    · rw [hpath]
      exact Option.isSome_iff_ne_none.mp hsome
  · exact h

theorem Aside.placed {contents : Bytes} {d' : Disk String UInt8}
    (h : Aside path contents d d') :
    FileOp.perform d' (.rename (temporaryPath path) path) =
        (.ok [], (d'.set path (some contents)).set (temporaryPath path) none) ∧
      Halfway path contents d ((d'.set path (some contents)).set (temporaryPath path) none) ∧
      ((d'.set path (some contents)).set (temporaryPath path) none) path = some contents := by
  obtain ⟨hmem, hmemT, -⟩ := mem_files path
  have hpath : ((d'.set path (some contents)).set (temporaryPath path) none) path =
      some contents := by
    rw [Disk.set_of_ne (temporaryPath_ne path).symm, Disk.set_self]
  have hback : ((d'.set path (some contents)).set (temporaryPath path) none) (backupPath path) =
      d' (backupPath path) := by
    rw [Disk.set_of_ne (temporaryPath_ne_backupPath path).symm, Disk.set_of_ne (backupPath_ne path)]
  refine ⟨by simp [FileOp.perform, h.temporary], ⟨(h.frame.set hmem _).set hmemT _,
    .inr (.inl hpath), ?_, fun _ => .inl (by rw [hpath]; simp)⟩, hpath⟩
  rw [hback]
  rcases h.places with ⟨-, -, hb⟩ | ⟨-, hb⟩ | ⟨-, hb⟩
  · exact .inr (.inl hb)
  · exact .inr (.inr hb)
  · exact .inl hb

variable {start : Disk String UInt8}

theorem takePlace_spec {contents : Bytes} {d' : Disk String UInt8} (clean : Bool)
    (h : Aside path contents d d') (hG : ∀ e, G e → Spared start path e)
    (hp : start path = d path) (hb : start (backupPath path) = d (backupPath path)) :
    (takePlace path (temporaryPath path) (backupPath path)).Ends G d' fun c =>
      Replaced path contents d (clean && c) := by
  have hspared : ∀ fate, G ⟨.rename (temporaryPath path) path, fate, d'⟩ → fate ≠ .fine →
      Halfway path contents d d' := by
    refine fun fate hev hfate => h.halfway fun hnone hsome hnone' hgone => ?_
    have hsafe := (hG _ hev (hp.trans hnone) (by rwa [hb])).2 hnone' hgone
    cases fate with
    | fine => exact hfate rfl
    | fails n => exact hsafe.2 ⟨rfl, rfl⟩
    | crash n => exact Bool.noConfusion hsafe.1
  obtain ⟨hplace, hhalf, hpath⟩ := h.placed
  obtain ⟨-, -, hmemB⟩ := mem_files path
  refine .attempt (fun n hev => ?_) (fun n hev => ?_) ?_
  · rw [Bool.and_false]
    exact (hspared _ hev (by simp)).stop.1
  · -- the renaming fails, and so may its being taken back
    have hstop := hspared _ hev (by simp)
    rw [Bool.and_false]
    refine .attempt (fun _ _ => hstop.stop.1) (fun _ _ => ⟨hstop.stop.2 _, hstop.stop.1⟩) ?_
    have hback := hstop.restored.stop
    exact ⟨hback.2 _, hback.1⟩
  · rw [hplace]
    refine .attempt (fun _ _ => ?_) (fun _ _ => ⟨?_, ?_⟩) ?_
    · rw [Bool.and_false]
      exact hhalf.stop.1
    · exact hhalf.replaced (fun _ => ⟨hpath, by simp⟩) (by simp)
    · rw [Bool.and_false]
      exact hhalf.stop.1
    · have hend : ((d'.set path (some contents)).set (temporaryPath path) none).set
          (backupPath path) none path = some contents := by
        rw [Disk.set_of_ne (backupPath_ne path).symm, hpath]
      have hlast : Halfway path contents d (((d'.set path (some contents)).set
          (temporaryPath path) none).set (backupPath path) none) :=
        ⟨hhalf.frame.set hmemB none, .inr (.inl hend), .inl (Disk.set_self _ _ _),
          fun _ => .inl (by rw [hend]; simp)⟩
      refine ⟨hlast.replaced (fun _ => ⟨hend, fun _ => Disk.set_self _ _ _⟩) (by simp), ?_⟩
      show Replaced path contents d (clean && false) none _
      rw [Bool.and_false]
      exact hlast.stop.1

/-- What is in its place is moved aside; where there is nothing, or it is not
seen, the renaming is all. -/
theorem moveAside_spec {contents : Bytes} {d' : Disk String UInt8} (clean : Bool)
    (h : Aside path contents d d') (hP : d' path = d path) (hG : ∀ e, G e → Spared start path e)
    (hp : start path = d path) (hb : start (backupPath path) = d (backupPath path)) :
    (do
      moveAside path (backupPath path)
      takePlace path (temporaryPath path) (backupPath path)).Ends G d' fun c =>
        Replaced path contents d (clean && c) := by
  obtain ⟨hmem, -, hmemB⟩ := mem_files path
  refine ⟨fun n hev => ?_, fun n _ => ?_, fun _ => ?_⟩
  · have hstop : Halfway path contents d d' := h.halfway fun hnone hsome hnone' hgone =>
      Bool.noConfusion ((hG _ hev (hp.trans hnone) (by rwa [hb])).2 hnone' hgone).1
    show Replaced path contents d (clean && false) none d'
    rw [Bool.and_false]
    exact hstop.stop.1
  · show (takePlace path (temporaryPath path) (backupPath path)).Ends G d' fun _ =>
      Replaced path contents d (clean && false)
    rw [Bool.and_false]
    exact takePlace_spec false h hG hp hb
  · show (bind (if (FileOp.perform d' (.metadata path)).1.toBool = true
      then Script.act (.rename path (backupPath path)) .io else pure ()) fun _ =>
        takePlace path (temporaryPath path) (backupPath path)).Ends G d' _
    by_cases hthere : d' path = none
    · rw [if_neg (by simp [FileOp.perform, hthere, Except.toBool])]
      exact takePlace_spec _ h hG hp hb
    · have hsome : (d' path).isSome = true := Option.isSome_iff_ne_none.mpr hthere
      have hstop : Halfway path contents d d' := h.halfway fun _ _ hnone _ => (hthere hnone).elim
      rw [if_pos (by simp [FileOp.perform, hsome, Except.toBool])]
      refine .act (fun n => ?_) (fun n => ?_) (fun r _ => ?_) (fun x hx => ?_)
      · rw [Bool.and_false]
        exact hstop.stop.1
      · rw [Bool.and_false]
        exact hstop.stop.2 _
      · have hrename : FileOp.perform d' (.rename path (backupPath path)) =
            (.ok [], (d'.set (backupPath path) (d' path)).set path none) := by
          simp only [FileOp.perform, if_pos hsome]
        rw [hrename]
        dsimp only
        refine takePlace_spec _ ⟨(h.frame.set hmemB _).set hmem _, ?_,
          .inl ⟨Disk.set_self _ _ _, by rwa [← hP], ?_⟩⟩ hG hp hb
        · rw [Disk.set_of_ne (temporaryPath_ne path),
            Disk.set_of_ne (temporaryPath_ne_backupPath path), h.temporary]
        · rw [Disk.set_of_ne (backupPath_ne path), Disk.set_self, hP]
      · rw [FileOp.perform, if_pos hsome] at hx
        cases hx

/-- A replacement, whatever happens in it, as long as the only copy of the old
contents is spared. -/
theorem writePrivateAtomic_spec (contents : Bytes) (hG : ∀ e, G e → Spared start path e)
    (hp : start path = d path) (hb : start (backupPath path) = d (backupPath path)) :
    (writePrivateAtomic path contents).Ends G d (Replaced path contents d) := by
  obtain ⟨hmem, hmemT, hmemB⟩ := mem_files path
  refine .bind ((writeTemporary_spec _ contents).weaken ?_)
  intro c r d' hw
  have hframe : OnlyFiles path d d' := fun f hf => hw.frame f fun heq => hf (heq ▸ hmemT)
  have hP : d' path = d path := hw.frame _ (temporaryPath_ne path).symm
  have hB : d' (backupPath path) = d (backupPath path) :=
    hw.frame _ (temporaryPath_ne_backupPath path).symm
  have hstop : Halfway path contents d d' :=
    ⟨hframe, .inr (.inr (.inl hP)), .inr (.inr hB), fun h => by rwa [hP, hB]⟩
  cases r with
  | none => exact hstop.stop.1
  | some r =>
    cases r with
    | error e =>
      obtain ⟨rfl, x, rfl⟩ := hw.error e rfl
      exact hstop.stop.2 x
    | ok u =>
      have hT := hw.ok rfl
      show (replaceFile path (temporaryPath path) (backupPath path)).Ends G d' fun c' =>
        Replaced path contents d (c && c')
      refine .attempt (fun n hev => ?_) (fun n hev => ?_) ?_
      · rw [Bool.and_false]
        exact hstop.stop.1
      · rw [Bool.and_false]
        exact moveAside_spec false ⟨hframe, hT, .inr (.inl ⟨hP, hB⟩)⟩ hP hG hp hb
      · have hP' : (d'.set (backupPath path) none) path = d path := by
          rw [Disk.set_of_ne (backupPath_ne path).symm, hP]
        have hT' : (d'.set (backupPath path) none) (temporaryPath path) = some contents := by
          rw [Disk.set_of_ne (temporaryPath_ne_backupPath path), hT]
        exact moveAside_spec _ ⟨hframe.set hmemB _, hT', .inr (.inr ⟨hP', Disk.set_self _ _ _⟩)⟩ hP'
          hG hp hb

end Specs

end Cinder.Secrets
