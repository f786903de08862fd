import Cinder.Pins.KeptPins
set_option autoImplicit false

namespace Cinder.Pins

section History
variable {Origin Cert Pin : Type} {w : World Origin Pin Cert} {i : Nat} {o : Origin}

theorem history_lookup [DecidableEq Origin] : (w.lookup i o).history = w.history := by
  unfold World.lookup
  split <;> rfl

theorem history_handshake [DecidableEq Pin] {digest : Cert → Pin} (k : Nat) (cert : Cert) :
    (w.handshake digest i o k cert).history = w.history := by
  unfold World.handshake
  split <;> rfl

theorem history_reuse (k n : Nat) : (w.reuse i o k n).history = w.history := by
  unfold World.reuse
  split <;> rfl

theorem history_renameTemp {w' : World Origin Pin Cert} (h : w.renameTemp = some w') :
    w'.history = w.history := by
  unfold World.renameTemp at h
  split at h <;> cases h <;> rfl

theorem history_storePin [DecidableEq Origin] [DecidableEq Pin] {digest : Cert → Pin} (cert : Cert)
    (seen : Pin) :
    (w.sendStep digest i o (.written cert seen) .proceed).history = w.history := by
  rw [World.sendStep]
  split
  · rfl
  · next w' hrename => exact (history_renameTemp hrename :)

theorem history_forgetStep [DecidableEq Origin] (phase : ForgetPhase Origin Pin)
    (choice : Choice Cert) :
    (w.forgetStep i o phase choice).history = w.history ∨
      (w.forgetStep i o phase choice).history = .forgot o :: w.history := by
  cases choice with
  | proceed =>
    cases phase with
    | read pins => exact .inr (congrArg (Event.forgot o :: ·) w.history_openTemp)
    | opened pins handle =>
      exact .inr (congrArg (Event.forgot o :: ·) (w.history_writeOpened handle _))
    | written =>
      rw [World.forgetStep]
      split
      · exact .inr rfl
      · next hrename => exact .inr (congrArg (Event.forgot o :: ·) (history_renameTemp hrename))
    | returned => exact .inl rfl
    | _ => exact .inr rfl
  | fails =>
    cases phase with
    | returned => exact .inl rfl
    | _ => exact .inr rfl
  | failsLater =>
    cases phase with
    | opened pins handle =>
      exact .inr (congrArg (Event.forgot o :: ·) (w.history_writeOpened handle _))
    | _ => exact .inl rfl
  | overlaps =>
    cases phase with
    | opened pins handle =>
      exact .inr (congrArg (Event.forgot o :: ·) (w.history_writeOpened handle _))
    | _ => exact .inl rfl
  | _ => cases phase <;> exact .inl rfl

end History

section
variable {Origin Cert Pin : Type} [DecidableEq Origin] [DecidableEq Pin] {digest : Cert → Pin}
  {w : World Origin Pin Cert} {i : Nat} {o : Origin}

/-- What was trusted is the pin, and a `send` that returns is answered by the
certificate that it is due. -/
def TrustKept (digest : Cert → Pin) (w : World Origin Pin Cert) (m : Move Origin Cert) : Prop :=
  (∀ o cert, trusted (w.move digest m).history o = some cert →
    (w.move digest m).file o = some (digest cert)) ∧
  ∀ i o cert first, (w.move digest m).history = .returned i o cert first :: w.history →
    (first = true → (w.move digest m).file o = some (digest cert)) ∧
    ∀ cert', due w.history i o = some cert' → cert = cert'

/-- A `send` only returns Ok after its response, or after it has stored a pin. -/
theorem sendStep_cases (phase : SendPhase Origin Pin Cert) (choice : Choice Cert) :
    (w.sendStep digest i o phase choice).history = w.history ∨
      (∃ k cert, phase = .responded k cert ∧
        w.sendStep digest i o phase choice = w.receive i o k cert) ∨
      ∃ cert seen, phase = .stored cert seen ∧ choice = .proceed := by
  cases choice with
  | proceed =>
    cases phase with
    | called => exact .inl history_lookup
    | read cert seen pins => exact .inl w.history_openTemp
    | opened cert seen pins handle => exact .inl (w.history_writeOpened handle _)
    | responded k cert => exact .inr (.inl ⟨k, cert, rfl, rfl⟩)
    | written cert seen => exact .inl (history_storePin cert seen)
    | stored cert seen => exact .inr (.inr ⟨cert, seen, rfl, rfl⟩)
    | _ => exact .inl rfl
  | fails => cases phase <;> exact .inl rfl
  | failsLater =>
    cases phase with
    | opened cert seen pins handle => exact .inl (w.history_writeOpened handle _)
    | _ => exact .inl rfl
  | overlaps =>
    cases phase with
    | opened cert seen pins handle => exact .inl (w.history_writeOpened handle _)
    | _ => exact .inl rfl
  | handshake cert =>
    cases phase with
    | connecting k => exact .inl (history_handshake k cert)
    | sent k _ => exact .inl (history_handshake k cert)
    | _ => exact .inl rfl
  | reuse n =>
    cases phase with
    | connecting k => exact .inl (history_reuse k n)
    | sent k _ => exact .inl (history_reuse k n)
    | _ => exact .inl rfl

theorem sendStep_returns {phase : SendPhase Origin Pin Cert} {choice : Choice Cert}
    (hok : phase.Ok digest w.clients (due w.history i o))
    (hclean : (Proc.send o phase).Undisturbed digest w choice)
    {i' : Nat} {o' : Origin} {cert : Cert} {first : Bool}
    (hreturn : (w.sendStep digest i o phase choice).history =
      .returned i' o' cert first :: w.history) :
    (first = true → (w.sendStep digest i o phase choice).file o' = some (digest cert)) ∧
      ∀ cert', due w.history i' o' = some cert' → digest cert' = digest cert := by
  rcases sendStep_cases phase choice with hsame | ⟨k, answer, rfl, hstep⟩ | ⟨answer, seen, rfl, rfl⟩
  · exact (List.ne_cons_self (hsame.symm.trans hreturn)).elim
  · rw [hstep] at hreturn ⊢
    rcases receive_cases hok.1 hok.2 with ⟨seen, hsaw, -⟩ | ⟨hanswer, hdue⟩
    · rw [hsaw] at hreturn
      exact (List.ne_cons_self hreturn).elim
    · rw [hanswer] at hreturn
      cases hreturn
      exact ⟨fun hfirst => by simp at hfirst, hdue⟩
  · obtain ⟨hnone, hseen⟩ := hok
    cases hreturn
    exact ⟨fun _ => hclean.trans (congrArg some hseen),
      fun cert' hdue => by rw [hnone] at hdue; cases hdue⟩

/-- The certificate of a first contact stays trusted until its origin is forgotten,
in every run in which each pin is stored undisturbed. -/
theorem trust_on_first_use_is_kept (hdigest : Function.Injective digest)
    {moves : List (Move Origin Cert)} {m : Move Origin Cert}
    (h : Undisturbed digest World.fresh (moves ++ [m])) :
    TrustKept digest (World.fresh.run digest moves) m := by
  obtain ⟨hmoves, hm, -⟩ := undisturbed_append h
  have hinv := inv_fresh.run hmoves
  refine ⟨(hinv.move hm).pinned, fun i o cert first hreturn => ?_⟩
  generalize World.fresh.run digest moves = w at *
  cases m with
  | send j o' =>
    simp only [World.move] at hreturn
    split at hreturn
    · exact (List.ne_cons_self hreturn).elim
    · cases hreturn
  | forget j o' =>
    simp only [World.move] at hreturn
    split at hreturn
    · exact (List.ne_cons_self hreturn).elim
    · cases hreturn
  | restart => exact (List.ne_cons_self hreturn).elim
  | step j choice =>
    cases hj : w.procs j with
    | none =>
      simp only [World.move, hj] at hreturn
      exact (List.ne_cons_self hreturn).elim
    | some p =>
      cases p with
      | killed =>
        simp only [World.move, hj] at hreturn
        exact (List.ne_cons_self hreturn).elim
      | forget o' phase =>
        simp only [World.move, hj] at hreturn
        rcases history_forgetStep phase choice with hsame | hforgot
        · exact (List.ne_cons_self (hsame.symm.trans hreturn)).elim
        · cases hforgot.symm.trans hreturn
      | send o' phase =>
        simp only [World.move, hj] at hreturn ⊢
        obtain ⟨hfirst, hdue⟩ :=
          sendStep_returns (hinv.known j o' phase hj) (hm _ hj) hreturn
        exact ⟨hfirst, fun cert' hc => (hdigest (hdue cert' hc)).symm⟩

end

/-! Runs of two Hosts, `true` and `false`, whose pins are their certificates. -/

def request (i : Nat) (o : Bool) (cert : Nat) : List (Move Bool Nat) :=
  [.send i o, .step i .proceed, .step i (.handshake cert), .step i .proceed, .step i .proceed]

def storePin (i : Nat) : List (Move Bool Nat) := List.replicate 4 (.step i .proceed)

def firstContact (i : Nat) (o : Bool) (cert : Nat) : List (Move Bool Nat) :=
  request i o cert ++ storePin i ++ [.step i .proceed]

theorem trust_on_first_use_is_kept_sample :
    TrustKept id (World.fresh.run id
      (firstContact 0 true 7 ++ firstContact 1 false 8 ++ [.restart, .send 2 true,
        .step 2 .proceed, .step 2 (.handshake 7), .step 2 .proceed])) (.step 2 .proceed) :=
  trust_on_first_use_is_kept Function.injective_id (by decide)

/-- Two first contacts read the pins before either stores its own. The first one
returns and its Host loses the pin, and the app is opened again. -/
def droppedPin : List (Move Bool Nat) :=
  request 0 true 7 ++ request 1 false 8 ++ [.step 0 .proceed, .step 1 .proceed] ++
    List.replicate 4 (.step 0 .proceed) ++ List.replicate 4 (.step 1 .proceed) ++ [.restart]

theorem dropped_pin_trusts_another_server :
    ¬ TrustKept id (World.fresh.run id
      (droppedPin ++ request 2 true 9 ++ storePin 2)) (.step 2 .proceed) := by
  intro h
  have hreturn := (h.2 2 true 9 true (by decide)).2 7 (by decide)
  cases hreturn

end Cinder.Pins
