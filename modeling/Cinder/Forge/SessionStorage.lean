import Cinder.Programs.SerialRuns
set_option autoImplicit false

/-!
Where the student app keeps its session: in the secret store of the device when it is
installed, in local storage when it runs in a browser.
-/

namespace Cinder.Forge
open Cinder.Programs

structure SessionStore where
  native : Option String
  web : String → Option String

inductive StorageStatement where
  | saveNative (session : String)
  | clearNative
  | setWeb (key value : String)
  | removeWeb (keys : List String)
  deriving DecidableEq

def SessionStore.without (keys : List String) (s : SessionStore) : SessionStore :=
  { s with web := fun k => if k ∈ keys then none else s.web k }

def StorageStatement.apply : StorageStatement → SessionStore → SessionStore
  | saveNative session, s => { s with native := some session }
  | clearNative, s => { s with native := none }
  | setWeb key value, s => { s with web := Function.update s.web key (some value) }
  | removeWeb keys, s => s.without keys

/-- The calls below catch what the secret store throws. -/
instance : Engine SessionStore StorageStatement Empty where
  run l s := .ok (l.apply s)

abbrev StorageProgram (α : Type) := Program SessionStore StorageStatement Empty α

/-- A call, and whether the secret store can be read and written while it runs. -/
inductive SessionCall where
  | load (reads saves : Bool)
  | save (value : String) (saves : Bool)
  | clear (clears : Bool)
  deriving DecidableEq

inductive SessionAnswer where
  | loaded (value : Option String)
  | saved (done : Bool)
  | cleared
  deriving DecidableEq

/-- What JavaScript takes for true: an empty text is not. -/
def nonEmpty (value : Option String) : Option String := value.filter fun v => v ≠ ""

section Calls
variable (installed : Bool) (keys : List String)

def legacyValue (s : SessionStore) : Option String := keys.findSome? fun k => nonEmpty (s.web k)

def removeWebValues : StorageProgram Unit := .execute (.removeWeb keys)

/-- What a load without a native value does: a value of local storage moves to the secret
store, or stays for one more launch. -/
def migrateLegacyValue (saves : Bool) : StorageProgram (Option String) := do
  let legacy ← .query (legacyValue keys)
  match legacy with
  | none => pure none
  | some value => do
    if installed && saves then
      .execute (.saveNative value)
      removeWebValues keys
    pure (some value)

def loadSessionValue (reads saves : Bool) : StorageProgram (Option String) := do
  let native ← if installed && reads then .query SessionStore.native else pure none
  match nonEmpty native with
  | some value => do
    removeWebValues keys
    pure (some value)
  | none => migrateLegacyValue installed keys saves

def saveSessionValue (value : String) (saves : Bool) : StorageProgram Bool :=
  if installed then
    if saves then do
      .execute (.saveNative value)
      removeWebValues keys
      pure true
    else pure false
  else do
    .execute (.setWeb (keys.headD "undefined") value)
    removeWebValues keys.tail
    pure true

def clearSessionValue (clears : Bool) : StorageProgram Unit := do
  if installed && clears then .execute .clearNative
  removeWebValues keys

def perform : SessionCall → StorageProgram SessionAnswer
  | .load reads saves => do
    let value ← loadSessionValue installed keys reads saves
    pure (.loaded value)
  | .save value saves => do
    let done ← saveSessionValue installed keys value saves
    pure (.saved done)
  | .clear clears => do
    clearSessionValue installed keys clears
    pure .cleared

end Calls

section Cell
variable {installed : Bool} {keys : List String} {s : SessionStore}

def held (installed : Bool) (keys : List String) (s : SessionStore) : Option String :=
  (if installed then nonEmpty s.native else none).or (legacyValue keys s)

def inCell (installed : Bool) : SessionCall → Option String → SessionAnswer × Option String
  | .load _ _, cell => (.loaded cell, cell)
  | .save value saves, cell =>
    if installed && !saves then (.saved false, cell) else (.saved true, nonEmpty (some value))
  | .clear _, _ => (.cleared, none)

def SessionCall.Works : SessionCall → Prop
  | .load reads _ => reads = true
  | .save _ _ => True
  | .clear clears => clears = true

instance : DecidablePred SessionCall.Works := fun call => by
  cases call <;> unfold SessionCall.Works <;> infer_instance

@[simp] theorem nonEmpty_none : nonEmpty none = none := rfl

@[simp] theorem nonEmpty_nonEmpty (value : Option String) :
    nonEmpty (nonEmpty value) = nonEmpty value := by
  simp [nonEmpty, Option.filter_filter]

theorem nonEmpty_some {value : Option String} {v : String} (h : nonEmpty value = some v) :
    nonEmpty (some v) = some v := by
  rw [← h, nonEmpty_nonEmpty]

theorem legacyValue_nonEmpty : nonEmpty (legacyValue keys s) = legacyValue keys s := by
  induction keys with
  | nil => simp [legacyValue]
  | cons k keys ih =>
    simp only [legacyValue, List.findSome?_cons]
    cases hk : nonEmpty (s.web k) with
    | none => exact ih
    | some v => exact nonEmpty_some hk

@[simp] theorem without_native : (s.without keys).native = s.native := rfl

@[simp] theorem legacyValue_without : legacyValue keys (s.without keys) = none := by
  rw [legacyValue, List.findSome?_eq_none_iff]
  intro k hk
  simp [SessionStore.without, hk]

@[simp] theorem exec_execute_apply (l : StorageStatement) (s : SessionStore) :
    (Program.execute l : StorageProgram Unit).exec s = (.ok (), l.apply s) := rfl

theorem exec_removeWebValues : (removeWebValues keys).exec s = (.ok (), s.without keys) := rfl

theorem exec_loadSessionValue (installed : Bool) (keys : List String) (saves : Bool) :
    ((loadSessionValue installed keys true saves).exec s).1 = .ok (held installed keys s) ∧
      held installed keys ((loadSessionValue installed keys true saves).exec s).2 =
        held installed keys s := by
  cases installed with
  | false =>
    cases hl : legacyValue keys s <;>
      simp [loadSessionValue, migrateLegacyValue, Program.exec_bind, held, hl]
  | true =>
    cases hn : nonEmpty s.native with
    | some v =>
      simp [loadSessionValue, Program.exec_bind, exec_removeWebValues, held, hn]
    | none =>
      cases hl : legacyValue keys s with
      | none => simp [loadSessionValue, migrateLegacyValue, Program.exec_bind, held, hn, hl]
      | some v =>
        have hv : nonEmpty (some v) = some v := by
          rw [← hl, legacyValue_nonEmpty]
        cases saves <;>
          simp [loadSessionValue, migrateLegacyValue, Program.exec_bind, exec_removeWebValues,
            StorageStatement.apply, held, hn, hl, hv]

theorem legacyValue_setWeb {k v : String} {ks : List String} (hk : k ∉ ks) :
    legacyValue (k :: ks) (SessionStore.without ks ((StorageStatement.setWeb k v).apply s)) =
      nonEmpty (some v) := by
  have hfirst :
      (SessionStore.without ks ((StorageStatement.setWeb k v).apply s)).web k = some v := by
    simp [SessionStore.without, StorageStatement.apply, hk]
  have hrest : legacyValue ks (SessionStore.without ks ((StorageStatement.setWeb k v).apply s)) =
      none := legacyValue_without
  unfold legacyValue at *
  rw [List.findSome?_cons, hfirst, hrest]
  cases nonEmpty (some v) <;> rfl

theorem exec_perform (installed : Bool) {k : String} {ks : List String} (hk : k ∉ ks)
    {call : SessionCall} (h : call.Works) (s : SessionStore) :
    ((perform installed (k :: ks) call).exec s).1 =
        .ok (inCell installed call (held installed (k :: ks) s)).1 ∧
      held installed (k :: ks) ((perform installed (k :: ks) call).exec s).2 =
        (inCell installed call (held installed (k :: ks) s)).2 := by
  cases call with
  | load reads saves =>
    have hreads : reads = true := h
    subst hreads
    obtain ⟨hans, hheld⟩ :=
      exec_loadSessionValue installed (k :: ks) (s := s) saves
    have hexec : (loadSessionValue installed (k :: ks) true saves).exec s =
        (.ok (held installed (k :: ks) s), _) := Prod.ext hans rfl
    simp only [perform, Program.exec_bind_ok _ hexec, Program.pure_eq, Program.exec_ret]
    exact ⟨rfl, hheld⟩
  | save value saves =>
    cases installed with
    | true =>
      cases saves with
      | true =>
        simp [perform, saveSessionValue, Program.exec_bind, exec_removeWebValues, inCell, held,
          StorageStatement.apply]
      | false => simp [perform, saveSessionValue, inCell]
    | false =>
      simp [perform, saveSessionValue, Program.exec_bind, exec_removeWebValues, inCell, held,
        legacyValue_setWeb hk]
  | clear clears =>
    have hclears : clears = true := h
    subst hclears
    cases installed <;>
      simp [perform, clearSessionValue, Program.exec_bind, exec_removeWebValues, inCell, held,
        StorageStatement.apply]

/-- Where sessions are kept, `SESSION_KEYS`. -/
def sessionKeys : List String := ["cinder.matchbox.session", "cinder.student.session"]

/-- However the calls come while others wait for the secret store, each answers as it would on
one cell that they reach in the order in which they were made. -/
theorem waiting_calls_share_one_cell {k : String} {ks : List String} (hk : k ∉ ks)
    (s : SessionStore) (ms : List (LineMove SessionCall))
    (hms : ∀ call ∈ LineMove.joined ms, call.Works) :
    let line := (Line.start s).run (perform installed (k :: ks)) ms
    let cell := inTurn (inCell installed) (LineMove.joined ms) (held installed (k :: ks) s)
    line.answers <+: cell.1.map .ok ∧
      (line.waiting = [] → line.answers = cell.1.map .ok ∧
        held installed (k :: ks) line.state = cell.2) := by
  intro line cell
  obtain ⟨hans, hheld⟩ := serial_inTurn (fun call hcall => exec_perform installed
    hk (hms call hcall)) s
  have hsofar := Line.answers_prefix (perform installed (k :: ks)) s ms
  have hfinished := Line.finished_start (perform installed (k :: ks)) s ms
  rw [hans] at hsofar
  refine ⟨hsofar, fun hnone => ?_⟩
  have hnow : line.finished = (line.answers, line.state) := by
    rw [Line.finished, hnone]
    simp
  have hpair : (line.answers, line.state) = serial (perform installed (k :: ks))
      (LineMove.joined ms) s := hnow.symm.trans hfinished
  rw [← hans, ← hheld, ← hpair]
  exact ⟨rfl, rfl⟩

theorem waiting_calls_share_one_cell_legacy :
    let s : SessionStore :=
      ⟨none, Function.update (fun _ => none) "cinder.student.session" (some "old")⟩
    let line := (Line.start s).run (perform true sessionKeys) [.join (.load true false), .advance,
      .join (.save "new" true), .join (.load true true), .advance]
    line.answers <+: [.ok (.loaded (some "old")), .ok (.saved true), .ok (.loaded (some "new"))] :=
  have hkey : "cinder.matchbox.session" ∉ ["cinder.student.session"] := by decide
  (waiting_calls_share_one_cell hkey _ _ (by decide)).1

end Cell

section Interrupted
variable {keys : List String} {s t : SessionStore}

/-- A call that puts nothing in the place of the session: it reads, or the secret store
refuses to write. -/
def SessionCall.Spares : SessionCall → Prop
  | .load _ _ => True
  | .save _ saves => saves = false
  | .clear _ => False

instance : DecidablePred SessionCall.Spares := fun call => by
  cases call <;> unfold SessionCall.Spares <;> infer_instance

def NoNewPlaintext (s t : SessionStore) : Prop := ∀ key v, t.web key = some v → s.web key = some v

theorem NoNewPlaintext.without (h : NoNewPlaintext s t) : NoNewPlaintext s (t.without keys) := by
  intro key v hv
  by_cases hk : key ∈ keys
  · simp [SessionStore.without, hk] at hv
  · exact h key v (by simpa [SessionStore.without, hk] using hv)

def StorageStatement.Native : StorageStatement → Prop
  | .setWeb _ _ => False
  | _ => True

theorem StorageStatement.Native.keeps {l : StorageStatement} (hl : l.Native)
    (h : NoNewPlaintext s t) : NoNewPlaintext s (l.apply t) := by
  cases l with
  | saveNative session => exact h
  | clearNative => exact h
  | setWeb key value => exact hl.elim
  | removeWeb keys => exact h.without

theorem migrateLegacyValue_installed (saves : Bool) :
    migrateLegacyValue true keys saves = .read fun u => match legacyValue keys u with
      | none => .ret none
      | some value =>
        if saves then .write (.saveNative value) fun _ => .write (.removeWeb keys) fun _ =>
          .ret (some value)
        else .ret (some value) := by
  refine congrArg Program.read (funext fun u => ?_)
  cases hl : legacyValue keys u <;> cases saves <;>
    simp [Program.bind, hl, Program.execute, removeWebValues]

theorem loadSessionValue_installed (reads saves : Bool) :
    loadSessionValue true keys reads saves = if reads then
      .read fun u => match nonEmpty u.native with
        | some value => .write (.removeWeb keys) fun _ => .ret (some value)
        | none => migrateLegacyValue true keys saves
      else migrateLegacyValue true keys saves := by
  cases reads with
  | true =>
    refine congrArg Program.read (funext fun u => ?_)
    cases hn : nonEmpty u.native <;> simp [Program.bind, hn, Program.execute, removeWebValues]
  | false => rfl

theorem writesOnly_migrateLegacyValue (saves : Bool) :
    (migrateLegacyValue true keys saves).WritesOnly StorageStatement.Native := by
  rw [migrateLegacyValue_installed]
  intro u
  cases hl : legacyValue keys u with
  | none => simp [hl, Program.WritesOnly]
  | some value => cases saves <;> simp [hl, Program.WritesOnly, StorageStatement.Native]

theorem writesOnly_loadSessionValue (reads saves : Bool) :
    (loadSessionValue true keys reads saves).WritesOnly StorageStatement.Native := by
  rw [loadSessionValue_installed]
  cases reads with
  | false => exact writesOnly_migrateLegacyValue saves
  | true =>
    intro u
    cases hn : nonEmpty u.native with
    | none => simpa [hn] using writesOnly_migrateLegacyValue saves
    | some value => simp [hn, Program.WritesOnly, StorageStatement.Native]

theorem writesOnly_perform (call : SessionCall) :
    (perform true keys call).WritesOnly StorageStatement.Native := by
  cases call with
  | load reads saves => exact (writesOnly_loadSessionValue reads saves).bind fun _ => trivial
  | save value saves =>
    cases saves with
    | true => exact ⟨trivial, fun _ => ⟨trivial, fun _ => trivial⟩⟩
    | false => exact trivial
  | clear clears =>
    cases clears with
    | true => exact ⟨trivial, fun _ => ⟨trivial, fun _ => trivial⟩⟩
    | false => exact ⟨trivial, fun _ => trivial⟩

/-- The session `v` is in the secret store, in local storage or in both, and no other is. -/
structure Keeping (keys : List String) (v : String) (s : SessionStore) : Prop where
  native : nonEmpty s.native = some v ∨ nonEmpty s.native = none
  legacy : legacyValue keys s = some v ∨ legacyValue keys s = none
  somewhere : nonEmpty s.native = some v ∨ legacyValue keys s = some v

instance (keys : List String) (v : String) : DecidablePred (Keeping keys v) := fun s =>
  decidable_of_iff ((nonEmpty s.native = some v ∨ nonEmpty s.native = none) ∧
    (legacyValue keys s = some v ∨ legacyValue keys s = none) ∧
    (nonEmpty s.native = some v ∨ legacyValue keys s = some v))
    ⟨fun h => ⟨h.1, h.2.1, h.2.2⟩, fun h => ⟨h.native, h.legacy, h.somewhere⟩⟩

theorem Keeping.held {v : String} (h : Keeping keys v s) : held true keys s = some v := by
  rcases h.native with hn | hn
  · simp [Cinder.Forge.held, hn]
  · have hl : legacyValue keys s = some v := h.somewhere.resolve_left (by simp [hn])
    simp [Cinder.Forge.held, hn, hl]

theorem keeping_without {v : String} (hn : nonEmpty s.native = some v) :
    Keeping keys v (s.without keys) :=
  ⟨.inl hn, .inr legacyValue_without, .inl hn⟩

theorem keeping_saveNative {v : String} (hv : nonEmpty (some v) = some v)
    (hl : legacyValue keys s = some v) :
    Keeping keys v ((StorageStatement.saveNative v).apply s) :=
  ⟨.inl hv, .inl hl, .inl hv⟩

theorem Keeping.always_migrateLegacyValue {v : String} (h : Keeping keys v s) (saves : Bool) :
    (migrateLegacyValue true keys saves).Always (Keeping keys v) s := by
  rw [migrateLegacyValue_installed]
  refine ⟨h, ?_⟩
  rcases h.legacy with hl | hl
  · have hv : nonEmpty (some v) = some v := by
      rw [← hl, legacyValue_nonEmpty]
    have hsaved := keeping_saveNative hv hl
    have hmoved : Keeping keys v (((StorageStatement.saveNative v).apply s).without keys) :=
      keeping_without hv
    cases saves with
    | true => simpa [hl, Program.Always] using ⟨h, hsaved, hmoved⟩
    | false => simpa [hl, Program.Always] using h
  · simpa [hl, Program.Always] using h

theorem Keeping.always_loadSessionValue {v : String} (h : Keeping keys v s) (reads saves : Bool) :
    (loadSessionValue true keys reads saves).Always (Keeping keys v) s := by
  rw [loadSessionValue_installed]
  cases reads with
  | false => exact h.always_migrateLegacyValue saves
  | true =>
    refine ⟨h, ?_⟩
    rcases h.native with hn | hn
    · have hleft : Keeping keys v (s.without keys) := keeping_without hn
      simpa [hn, Program.Always] using ⟨h, hleft⟩
    · simpa [hn] using h.always_migrateLegacyValue saves

theorem Keeping.always_perform {v : String} (h : Keeping keys v s) {call : SessionCall}
    (hcall : call.Spares) : (perform true keys call).Always (Keeping keys v) s := by
  cases call with
  | load reads saves =>
    exact Program.Always.bind (h.always_loadSessionValue reads saves) fun _ _ hnext => hnext
  | save value saves =>
    have hsaves : saves = false := hcall
    subst hsaves
    exact h
  | clear clears => exact hcall.elim

/-- However far calls of the installed app come before it is closed, and whatever the secret
store refuses: none of them leaves a session readable in local storage that was not there, and
unless one of them replaces the session the next start finds it. -/
theorem interrupted_calls_keep_session (keys : List String) (s : SessionStore)
    (ms : List (LineMove SessionCall)) :
    let line := (Line.start s).run (perform true keys) ms
    NoNewPlaintext s line.state ∧
      ∀ v, Keeping keys v s → (∀ call ∈ LineMove.joined ms, call.Spares) → ∀ saves,
        ((loadSessionValue true keys true saves).exec line.state).1 = .ok (some v) := by
  intro line
  constructor
  · refine (Line.Keeps.run (I := NoNewPlaintext s) ⟨fun _ _ h => h, trivial⟩ ?_).1
    intro call _ t ht
    exact (writesOnly_perform call).always (fun l u u' hl hrun hu => by
      cases hrun
      exact hl.keeps hu) ht
  · intro v hv hms saves
    have hline : line.Keeps (Keeping keys v) :=
      Line.Keeps.run ⟨hv, trivial⟩ fun call hcall t ht => ht.always_perform (hms call hcall)
    rw [(exec_loadSessionValue true keys saves).1, hline.1.held]

theorem interrupted_calls_keep_session_legacy :
    let s : SessionStore :=
      ⟨none, Function.update (fun _ => none) "cinder.student.session" (some "old")⟩
    let line := (Line.start s).run (perform true sessionKeys) [.join (.load false true), .advance,
      .advance, .join (.save "new" false)]
    ((loadSessionValue true sessionKeys true true).exec line.state).1 = .ok (some "old") :=
  (interrupted_calls_keep_session sessionKeys _ _).2 "old" (by decide) (by decide) true

end Interrupted

end Cinder.Forge
