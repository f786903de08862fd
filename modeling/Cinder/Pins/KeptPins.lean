import Cinder.Pins.TrustedHosts
set_option autoImplicit false

namespace Cinder.Pins

section Clients
variable {Cert Pin : Type}

def Expects (clients : List (PinnedClient Pin Cert)) (k : Nat) (pin : Option Pin) : Prop :=
  ∃ c, clients[k]? = some c ∧ c.expected = pin

def Grows (clients clients' : List (PinnedClient Pin Cert)) : Prop :=
  ∀ (k : Nat) (c : PinnedClient Pin Cert), clients[k]? = some c → ∃ c', clients'[k]? = some c' ∧
    c'.expected = c.expected ∧ (c.seen.isSome = true → c'.seen.isSome = true)

theorem Grows.refl (clients : List (PinnedClient Pin Cert)) : Grows clients clients :=
  fun _ c hc => ⟨c, hc, rfl, id⟩

theorem Grows.append (clients : List (PinnedClient Pin Cert)) (c : PinnedClient Pin Cert) :
    Grows clients (clients ++ [c]) :=
  fun _ c' hc => ⟨c', by
    rw [List.getElem?_append_left (List.getElem?_eq_some_iff.mp hc).1]; exact hc, rfl, id⟩

theorem Expects.grows {clients clients' : List (PinnedClient Pin Cert)} {k : Nat} {pin : Option Pin}
    (h : Expects clients k pin) (hgrows : Grows clients clients') : Expects clients' k pin := by
  obtain ⟨c, hc, hpin⟩ := h
  obtain ⟨c', hc', hexpected, -⟩ := hgrows k c hc
  exact ⟨c', hc', hexpected.trans hpin⟩

theorem Expects.unique {clients : List (PinnedClient Pin Cert)} {k : Nat} {pin : Option Pin}
    {c : PinnedClient Pin Cert} (h : Expects clients k pin) (hc : clients[k]? = some c) :
    c.expected = pin := by
  obtain ⟨c', hc', hpin⟩ := h
  rw [Option.some.inj (hc.symm.trans hc')]
  exact hpin

theorem due_eq_none {digest : Cert → Pin} {clients : List (PinnedClient Pin Cert)}
    {due : Option Cert} {k : Nat} {c : PinnedClient Pin Cert}
    (hdue : ∀ cert, due = some cert → Expects clients k (some (digest cert)))
    (hc : clients[k]? = some c) (hnone : c.expected = none) : due = none := by
  cases due with
  | none => rfl
  | some cert => exact absurd ((hdue cert rfl).unique hc) (by rw [hnone]; simp)

section Verifier
variable {Origin : Type} [DecidableEq Pin] {digest : Cert → Pin}

def Served (digest : Cert → Pin) (clients : List (PinnedClient Pin Cert)) (k : Nat) (cert : Cert) :
    Prop :=
  ∃ c, clients[k]? = some c ∧ c.seen.isSome = true ∧ c.accepts digest cert = true

def Connected (digest : Cert → Pin) (clients : List (PinnedClient Pin Cert)) : Prop :=
  ∀ (k : Nat) (c : PinnedClient Pin Cert), clients[k]? = some c → ∀ cert ∈ c.connections,
    c.accepts digest cert = true ∧ c.seen.isSome = true

theorem PinnedClient.verify_expected (c : PinnedClient Pin Cert) (cert : Cert) :
    (c.verify digest cert).expected = c.expected := by
  unfold PinnedClient.verify
  split <;> rfl

theorem PinnedClient.verify_seen (c : PinnedClient Pin Cert) (cert : Cert) :
    (c.verify digest cert).seen = some (digest cert) := by
  unfold PinnedClient.verify
  split <;> rfl

theorem PinnedClient.accepts_congr {c c' : PinnedClient Pin Cert} (h : c'.expected = c.expected)
    (cert : Cert) : c'.accepts digest cert = c.accepts digest cert := by
  unfold PinnedClient.accepts
  rw [h]

theorem Grows.set {clients : List (PinnedClient Pin Cert)} {k : Nat} {c : PinnedClient Pin Cert}
    (h : clients[k]? = some c) (cert : Cert) :
    Grows clients (clients.set k (c.verify digest cert)) := by
  intro k' c' hc'
  by_cases hk : k = k'
  · subst hk
    obtain rfl := Option.some.inj (h.symm.trans hc')
    refine ⟨c.verify digest cert, ?_, c.verify_expected cert, fun _ => ?_⟩
    · rw [List.getElem?_set_self (List.getElem?_eq_some_iff.mp h).1]
    · rw [PinnedClient.verify_seen]; rfl
  · exact ⟨c', by rw [List.getElem?_set_ne hk]; exact hc', rfl, id⟩

theorem Served.grows {clients clients' : List (PinnedClient Pin Cert)} {k : Nat} {cert : Cert}
    (h : Served digest clients k cert) (hgrows : Grows clients clients') :
    Served digest clients' k cert := by
  obtain ⟨c, hc, hseen, haccepts⟩ := h
  obtain ⟨c', hc', hexpected, hseen'⟩ := hgrows k c hc
  exact ⟨c', hc', hseen' hseen, by rw [PinnedClient.accepts_congr hexpected]; exact haccepts⟩

/-- What is known of a `send` in each of its phases, for a certificate that it is
due. A first contact is due none. -/
def SendPhase.Ok (digest : Cert → Pin) (clients : List (PinnedClient Pin Cert)) (due : Option Cert) :
    SendPhase Origin Pin Cert → Prop
  | .connecting k => ∀ c, due = some c → Expects clients k (some (digest c))
  | .sent k cert | .responded k cert =>
    Served digest clients k cert ∧ ∀ c, due = some c → Expects clients k (some (digest c))
  | .saw _ _ | .read _ _ _ | .opened _ _ _ _ | .written _ _ => due = none
  | .stored cert seen => due = none ∧ seen = digest cert
  | .called | .returned _ => True

theorem SendPhase.Ok.mono {clients clients' : List (PinnedClient Pin Cert)}
    {due due' : Option Cert} {phase : SendPhase Origin Pin Cert} (h : phase.Ok digest clients due)
    (hgrows : Grows clients clients') (hdue : ∀ c, due' = some c → due = some c) :
    phase.Ok digest clients' due' := by
  have hnone : due = none → due' = none := fun hnone => by
    cases hdue' : due' with
    | none => rfl
    | some c => exact absurd (hnone.symm.trans (hdue c hdue')) (by simp)
  cases phase with
  | called => trivial
  | returned answer => trivial
  | connecting k => exact fun c hc => (h c (hdue c hc)).grows hgrows
  | sent k cert => exact ⟨h.1.grows hgrows, fun c hc => (h.2 c (hdue c hc)).grows hgrows⟩
  | responded k cert => exact ⟨h.1.grows hgrows, fun c hc => (h.2 c (hdue c hc)).grows hgrows⟩
  | saw cert seen => exact hnone h
  | read cert seen pins => exact hnone h
  | opened cert seen pins handle => exact hnone h
  | written cert seen => exact hnone h
  | stored cert seen => exact ⟨hnone h.1, h.2⟩

end Verifier

end Clients

variable {Origin Cert Pin : Type} [DecidableEq Origin] [DecidableEq Pin] {digest : Cert → Pin}
  {w : World Origin Pin Cert}

structure Inv (digest : Cert → Pin) (w : World Origin Pin Cert) : Prop where
  pinned : ∀ o c, trusted w.history o = some c → w.file o = some (digest c)
  cached : ∀ o c k, trusted w.history o = some c → w.cache o = some k →
    Expects w.clients k (some (digest c))
  connected : Connected digest w.clients
  known : ∀ i o phase, w.procs i = some (.send o phase) →
    phase.Ok digest w.clients (due w.history i o)

theorem inv_fresh : Inv digest (World.fresh : World Origin Pin Cert) where
  pinned _ _ h := by cases h
  cached _ _ _ h := by cases h
  connected _ _ h := by simp [World.fresh] at h
  known _ _ _ h := by cases h

/-- A step of process `i` that leaves the files alone. -/
theorem Inv.advance {w w' : World Origin Pin Cert} {i : Nat} (h : Inv digest w)
    (htrusted : ∀ o c, trusted w'.history o = some c → trusted w.history o = some c)
    (hdue : ∀ j o c, j ≠ i → due w'.history j o = some c → due w.history j o = some c)
    (hfile : w'.file = w.file)
    (hcached : ∀ o c k, trusted w.history o = some c → w'.cache o = some k →
      Expects w'.clients k (some (digest c)))
    (hgrows : Grows w.clients w'.clients)
    (hconnected : Connected digest w'.clients)
    (hprocs : ∀ j, j ≠ i → w'.procs j = w.procs j)
    (hi : ∀ o phase, w'.procs i = some (.send o phase) →
      phase.Ok digest w'.clients (due w'.history i o)) : Inv digest w' where
  pinned o c hc := by rw [hfile]; exact h.pinned o c (htrusted o c hc)
  cached o c k hc := hcached o c k (htrusted o c hc)
  connected := hconnected
  known j o phase hj := by
    by_cases hij : j = i
    · subst hij
      exact hi o phase hj
    · rw [hprocs j hij] at hj
      exact (h.known j o phase hj).mono hgrows fun c => hdue j o c hij

theorem Inv.setSend (h : Inv digest w) {i : Nat} {o : Origin} {phase : SendPhase Origin Pin Cert}
    (hok : phase.Ok digest w.clients (due w.history i o)) : Inv digest (w.setSend i o phase) := by
  refine h.advance (i := i) (fun _ _ => id) (fun _ _ _ _ => id) rfl h.cached (.refl _) h.connected
    (fun j hj => Function.update_of_ne hj _ _) fun o' phase' hi => ?_
  obtain ⟨rfl, rfl⟩ := Proc.send.inj (Option.some.inj ((Function.update_self i _ _).symm.trans hi))
  exact hok

theorem Inv.setForget (h : Inv digest w) (i : Nat) (o : Origin) (phase : ForgetPhase Origin Pin) :
    Inv digest (w.setForget i o phase) := by
  refine h.advance (i := i) (fun _ _ => trusted_of_forgot) (fun _ _ _ _ => due_of_forgot) rfl
    h.cached (.refl _) h.connected (fun j hj => Function.update_of_ne hj _ _) fun o' phase' hi => ?_
  cases (Function.update_self i _ _).symm.trans hi

theorem Inv.addClient (h : Inv digest w) {o : Origin} {pin : Option Pin}
    (hpin : ∀ c, trusted w.history o = some c → pin = some (digest c)) :
    Inv digest (w.addClient o pin) where
  pinned := h.pinned
  cached o' c k hc hk := by
    by_cases ho : o' = o
    · subst ho
      obtain rfl := Option.some.inj ((Function.update_self o' _ _).symm.trans hk)
      exact ⟨_, List.getElem?_concat_length, hpin c hc⟩
    · exact (h.cached o' c k hc ((Function.update_of_ne ho _ _).symm.trans hk)).grows (.append _ _)
  connected := by
    intro k c hc
    rw [World.addClient, List.getElem?_append] at hc
    split at hc
    · exact h.connected k c hc
    · obtain rfl := List.mem_singleton.mp (List.mem_of_getElem? hc)
      exact fun cert hcert => absurd hcert List.not_mem_nil
  known j o' phase hj := (h.known j o' phase hj).mono (.append _ _) fun _ => id

theorem Inv.openTemp (h : Inv digest w) : Inv digest w.openTemp := by
  unfold World.openTemp
  split <;> exact ⟨h.pinned, h.cached, h.connected, h.known⟩

theorem Inv.writeOpened (h : Inv digest w) {handle : Nat} (hhandle : handle ≠ w.placed)
    (content : TempFile Origin Pin) : Inv digest (w.writeOpened handle content) := by
  unfold World.writeOpened
  rw [if_neg hhandle]
  split
  · exact ⟨h.pinned, h.cached, h.connected, h.known⟩
  · exact h

theorem Inv.setCache (h : Inv digest w) {cache : Origin → Option Nat}
    (hcache : ∀ o k, cache o = some k → w.cache o = some k) :
    Inv digest { w with cache := cache } :=
  ⟨h.pinned, fun o c k hc hk => h.cached o c k hc (hcache o k hk), h.connected, h.known⟩

theorem Inv.setFile (h : Inv digest w) {pins : PinMap Origin Pin} (placed : Nat)
    (t : TempFile Origin Pin)
    (hpins : ∀ o c, trusted w.history o = some c → pins o = some (digest c)) :
    Inv digest { w with file := pins, placed := placed, temp := t } :=
  ⟨hpins, h.cached, h.connected, h.known⟩

theorem Inv.returnOk (h : Inv digest w) {i : Nat} {o : Origin} {cert : Cert} {first : Bool}
    (hfirst : first = true → w.file o = some (digest cert) ∧
      ∀ k, w.cache o = some k → Expects w.clients k (some (digest cert))) :
    Inv digest (w.returnOk i o cert first) := by
  have htrusted : ∀ o' c, trusted (.returned i o cert first :: w.history) o' = some c →
      trusted w.history o' = some c ∨ first = true ∧ o' = o ∧ c = cert := by
    intro o' c hc
    rw [trusted_returned] at hc
    split at hc
    · next hand =>
      cases hold : trusted w.history o' with
      | none => rw [hold] at hc; exact .inr ⟨hand.1, hand.2.symm, (Option.some.inj hc).symm⟩
      | some c' => rw [hold] at hc; exact .inl hc
    · exact .inl hc
  refine ⟨fun o' c hc => ?_, fun o' c k hc hk => ?_, h.connected, fun j o' phase hj => ?_⟩
  · rcases htrusted o' c hc with hold | ⟨hf, rfl, rfl⟩
    · exact h.pinned o' c hold
    · exact (hfirst hf).1
  · rcases htrusted o' c hc with hold | ⟨hf, rfl, rfl⟩
    · exact h.cached o' c k hold hk
    · exact (hfirst hf).2 k hk
  · by_cases hij : j = i
    · subst hij
      obtain ⟨-, rfl⟩ := Proc.send.inj (Option.some.inj ((Function.update_self j _ _).symm.trans hj))
      trivial
    · exact h.known j o' phase ((Function.update_of_ne hij _ _).symm.trans hj)

/-! What each step of a `send` keeps. -/

section Steps
variable {i : Nat} {o : Origin}

theorem Inv.lookup (h : Inv digest w) : Inv digest (w.lookup i o) := by
  unfold World.lookup
  split
  · next k hk => exact h.setSend fun c hc => h.cached o c k (trusted_of_due hc) hk
  · have hadd := h.addClient (o := o) fun c hc => h.pinned o c hc
    exact hadd.setSend fun c hc =>
      ⟨_, List.getElem?_concat_length, h.pinned o c (trusted_of_due hc)⟩

theorem Connected.set {clients : List (PinnedClient Pin Cert)} {k : Nat} {c : PinnedClient Pin Cert}
    (h : Connected digest clients) (hc : clients[k]? = some c) (cert : Cert) :
    Connected digest (clients.set k (c.verify digest cert)) := by
  intro k' c' hc' cert' hcert'
  by_cases hk : k = k'
  · subst hk
    rw [List.getElem?_set_self (List.getElem?_eq_some_iff.mp hc).1] at hc'
    obtain rfl := Option.some.inj hc'
    rw [PinnedClient.accepts_congr (c.verify_expected cert), PinnedClient.verify_seen]
    refine ⟨?_, rfl⟩
    unfold PinnedClient.verify at hcert'
    split at hcert'
    · next haccepts =>
      rcases List.mem_cons.mp hcert' with rfl | hold
      · exact haccepts
      · exact (h k c hc cert' hold).1
    · exact (h k c hc cert' hcert').1
  · rw [List.getElem?_set_ne hk] at hc'
    exact h k' c' hc' cert' hcert'

theorem Inv.handshake (h : Inv digest w) {k : Nat} (cert : Cert)
    (hdue : ∀ c, due w.history i o = some c → Expects w.clients k (some (digest c))) :
    Inv digest (w.handshake digest i o k cert) := by
  unfold World.handshake
  split
  · exact h
  · next c hc =>
    have hgrows : Grows w.clients (w.clients.set k (c.verify digest cert)) := Grows.set hc cert
    have hset : Inv digest { w with clients := w.clients.set k (c.verify digest cert) } :=
      ⟨h.pinned, fun o' c' k' hc' hk' => (h.cached o' c' k' hc' hk').grows hgrows,
        h.connected.set hc cert, fun j o' phase hj => (h.known j o' phase hj).mono hgrows fun _ => id⟩
    refine hset.setSend ?_
    split
    · next haccepts =>
      refine ⟨⟨c.verify digest cert, ?_, ?_, ?_⟩, fun c' hc' => (hdue c' hc').grows hgrows⟩
      · exact List.getElem?_set_self (List.getElem?_eq_some_iff.mp hc).1
      · rw [PinnedClient.verify_seen]; rfl
      · rw [PinnedClient.accepts_congr (c.verify_expected cert)]; exact haccepts
    · exact fun c' hc' => (hdue c' hc').grows hgrows

theorem Inv.reuse (h : Inv digest w) {k : Nat} (n : Nat)
    (hdue : ∀ c, due w.history i o = some c → Expects w.clients k (some (digest c))) :
    Inv digest (w.reuse i o k n) := by
  unfold World.reuse
  split
  · exact h
  · next cert hcert =>
    obtain ⟨c, hc, hn⟩ := Option.bind_eq_some_iff.mp hcert
    obtain ⟨haccepts, hseen⟩ := h.connected k c hc cert (List.mem_of_getElem? hn)
    exact h.setSend ⟨⟨c, hc, hseen, haccepts⟩, hdue⟩

theorem Inv.failRequest (h : Inv digest w) (k : Nat) : Inv digest (w.failRequest i o k) := by
  refine Inv.setSend (h.setCache fun o' k' hk' => ?_) trivial
  split at hk'
  · by_cases ho : o' = o
    · subst ho
      cases (Function.update_self o' _ _).symm.trans hk'
    · exact (Function.update_of_ne ho _ _).symm.trans hk'
  · exact hk'

theorem accepts_some {c : PinnedClient Pin Cert} {pin : Pin} {cert : Cert}
    (hpin : c.expected = some pin) (h : c.accepts digest cert = true) : pin = digest cert := by
  unfold PinnedClient.accepts at h
  rw [hpin] at h
  exact of_decide_eq_true h

/-- After the response: a first contact is due none, and any other `send` is
answered by the certificate that it is due. -/
theorem receive_cases {k : Nat} {cert : Cert} (hserved : Served digest w.clients k cert)
    (hdue : ∀ c, due w.history i o = some c → Expects w.clients k (some (digest c))) :
    (∃ seen, w.receive i o k cert = w.setSend i o (.saw cert seen) ∧ due w.history i o = none) ∨
      w.receive i o k cert = w.returnOk i o cert false ∧
        ∀ c, due w.history i o = some c → digest c = digest cert := by
  obtain ⟨c, hc, hseen, haccepts⟩ := hserved
  unfold World.receive
  rw [hc]
  dsimp only
  cases hexpected : c.expected with
  | none =>
    obtain ⟨seen, hsome⟩ := Option.isSome_iff_exists.mp hseen
    rw [hsome]
    exact .inl ⟨seen, rfl, due_eq_none hdue hc hexpected⟩
  | some pin =>
    refine .inr ⟨rfl, fun c' hc' => ?_⟩
    have hpin := (hdue c' hc').unique hc
    exact accepts_some hpin haccepts

theorem Inv.receive (h : Inv digest w) {k : Nat} {cert : Cert}
    (hserved : Served digest w.clients k cert)
    (hdue : ∀ c, due w.history i o = some c → Expects w.clients k (some (digest c))) :
    Inv digest (w.receive i o k cert) := by
  rcases receive_cases hserved hdue with ⟨seen, hsaw, hnone⟩ | ⟨hreturn, -⟩
  · rw [hsaw]
    exact h.setSend hnone
  · rw [hreturn]
    exact h.returnOk fun hfirst => by cases hfirst

theorem Inv.storePin (h : Inv digest w) {cert : Cert} {seen : Pin}
    (hnone : due w.history i o = none)
    (hclean : (Proc.send o (.written cert seen)).Undisturbed digest w .proceed) :
    Inv digest (w.sendStep digest i o (.written cert seen) .proceed) := by
  obtain ⟨htemp, hseen, hfile⟩ := hclean
  rcases renameTemp_of_is htemp with hgone | hrename
  · rw [World.sendStep, hgone]
    exact h.setSend trivial
  · rw [World.sendStep, hrename]
    refine (h.setFile w.files .absent fun o' c hc => ?_).setSend ⟨hnone, hseen⟩
    have hold := h.pinned o' c hc
    by_cases ho : o' = o
    · subst ho
      rw [Function.update_self]
      rcases hfile with hfile | hfile
      · rw [hfile] at hold; cases hold
      · rw [← hfile]; exact hold
    · rw [Function.update_of_ne ho]
      exact hold

theorem Inv.addPinned (h : Inv digest w) {seen : Pin} (hfile : w.file o = some seen) :
    Inv digest (w.addClient o (some seen)) :=
  h.addClient fun c hc => hfile.symm.trans (h.pinned o c hc)

theorem Inv.returnFirst (h : Inv digest w) {cert : Cert} {seen : Pin} (hseen : seen = digest cert)
    (hfile : w.file o = some seen) :
    Inv digest ((w.addClient o (some seen)).returnOk i o cert true) := by
  refine (h.addPinned hfile).returnOk fun _ => ⟨hfile.trans (congrArg some hseen), fun k hk => ?_⟩
  obtain rfl := Option.some.inj ((Function.update_self o _ _).symm.trans hk)
  exact ⟨_, List.getElem?_concat_length, congrArg some hseen⟩

theorem Inv.sendStep (h : Inv digest w) {phase : SendPhase Origin Pin Cert} {choice : Choice Cert}
    (hok : phase.Ok digest w.clients (due w.history i o))
    (hclean : (Proc.send o phase).Undisturbed digest w choice) :
    Inv digest (w.sendStep digest i o phase choice) := by
  cases phase with
  | called =>
    cases choice with
    | proceed => exact h.lookup
    | fails => exact h.setSend trivial
    | _ => exact h
  | connecting k =>
    cases choice with
    | handshake cert => exact h.handshake cert hok
    | reuse n => exact h.reuse n hok
    | fails => exact h.failRequest k
    | _ => exact h
  | sent k cert =>
    cases choice with
    | proceed => exact h.setSend hok
    | handshake cert' => exact h.handshake cert' hok.2
    | reuse n => exact h.reuse n hok.2
    | fails => exact h.failRequest k
    | _ => exact h
  | responded k cert =>
    cases choice with
    | proceed => exact h.receive hok.1 hok.2
    | fails => exact h.setSend trivial
    | _ => exact h
  | saw cert seen =>
    cases choice with
    | proceed => exact h.setSend hok
    | fails => exact h.setSend trivial
    | _ => exact h
  | read cert seen pins =>
    cases choice with
    | proceed => exact h.openTemp.setSend (by simpa [SendPhase.Ok] using hok)
    | fails => exact h.setSend trivial
    | _ => exact h
  | opened cert seen pins handle =>
    cases choice with
    | proceed => exact (h.writeOpened hclean _).setSend (by simpa [SendPhase.Ok] using hok)
    | overlaps => exact (h.writeOpened hclean _).setSend (by simpa [SendPhase.Ok] using hok)
    | failsLater => exact (h.writeOpened hclean _).setSend trivial
    | fails => exact h.setSend trivial
    | _ => exact h
  | written cert seen =>
    cases choice with
    | proceed => exact h.storePin hok hclean
    | fails => exact h.setSend trivial
    | _ => exact h
  | stored cert seen =>
    cases choice with
    | proceed => exact h.returnFirst hok.2 hclean
    | failsLater => exact (h.addPinned hclean).setSend trivial
    | fails => exact h.setSend trivial
    | _ => exact h
  | returned answer => exact h

theorem Inv.forgetPin (h : Inv digest w)
    (hclean : (Proc.forget o .written).Undisturbed digest w .proceed) :
    Inv digest (w.forgetStep i o .written .proceed) := by
  rcases renameTemp_of_is hclean with hgone | hrename
  · rw [World.forgetStep, hgone]
    exact h.setForget i o .returned
  · rw [World.forgetStep, hrename]
    -- the origin is forgotten in the same step as its pin goes
    refine (h.setForget i o .returned).setFile w.files .absent fun o' c hc => ?_
    have hne : o' ≠ o := fun ho => by
      rw [ho] at hc
      exact absurd (hc.symm.trans (if_pos rfl)) (by simp)
    exact (Function.update_of_ne hne _ _).trans (h.pinned o' c (trusted_of_forgot hc))

theorem Inv.forgetStep (h : Inv digest w) {phase : ForgetPhase Origin Pin} {choice : Choice Cert}
    (hclean : (Proc.forget o phase).Undisturbed digest w choice) :
    Inv digest (w.forgetStep i o phase choice) := by
  cases phase with
  | called =>
    cases choice with
    | proceed =>
      refine Inv.setForget (h.setCache fun o' k hk => ?_) i o .removed
      by_cases ho : o' = o
      · subst ho
        cases (Function.update_self o' _ _).symm.trans hk
      · exact (Function.update_of_ne ho _ _).symm.trans hk
    | fails => exact h.setForget i o .returned
    | _ => exact h
  | removed =>
    cases choice with
    | proceed => exact h.setForget i o _
    | fails => exact h.setForget i o .returned
    | _ => exact h
  | read pins =>
    cases choice with
    | proceed => exact h.openTemp.setForget i o _
    | fails => exact h.setForget i o .returned
    | _ => exact h
  | opened pins handle =>
    cases choice with
    | proceed => exact (h.writeOpened hclean _).setForget i o _
    | overlaps => exact (h.writeOpened hclean _).setForget i o _
    | failsLater => exact (h.writeOpened hclean _).setForget i o _
    | fails => exact h.setForget i o .returned
    | _ => exact h
  | written =>
    cases choice with
    | proceed => exact h.forgetPin hclean
    | fails => exact h.setForget i o .returned
    | _ => exact h
  | returned => exact h

theorem Inv.restart (h : Inv digest w) : Inv digest w.restart where
  pinned := h.pinned
  cached _ _ _ _ hk := by cases hk
  connected := h.connected
  known j o' phase hj := by
    obtain ⟨p, -, hp⟩ := Option.map_eq_some_iff.mp hj
    cases hp

theorem Inv.callSend (h : Inv digest w) (hi : w.procs i = none) :
    Inv digest (w.move digest (.send i o)) := by
  simp only [World.move, hi]
  refine h.advance (i := i) (fun _ _ => id) (fun j o' c hj hc => ?_) rfl h.cached (.refl _)
    h.connected (fun j hj => Function.update_of_ne hj _ _) fun o' phase hp => ?_
  · rw [← hc]
    exact (due_called_of_ne hj).symm
  · obtain ⟨-, rfl⟩ := Proc.send.inj (Option.some.inj ((Function.update_self i _ _).symm.trans hp))
    trivial

end Steps

theorem Inv.move (h : Inv digest w) {m : Move Origin Cert} (hclean : m.Undisturbed digest w) :
    Inv digest (w.move digest m) := by
  cases m with
  | send i o =>
    cases hi : w.procs i with
    | none => exact h.callSend hi
    | some p => simpa only [World.move, hi] using h
  | forget i o =>
    cases hi : w.procs i with
    | none => simpa only [World.move, hi] using h.setForget i o .called
    | some p => simpa only [World.move, hi] using h
  | restart => exact h.restart
  | step i choice =>
    cases hi : w.procs i with
    | none => simpa only [World.move, hi] using h
    | some p =>
      have hp := hclean p hi
      cases p with
      | send o phase => simpa only [World.move, hi] using h.sendStep (h.known i o phase hi) hp
      | forget o phase => simpa only [World.move, hi] using h.forgetStep (i := i) hp
      | killed => simpa only [World.move, hi] using h

theorem Inv.run (h : Inv digest w) {moves : List (Move Origin Cert)}
    (hclean : Undisturbed digest w moves) : Inv digest (w.run digest moves) := by
  induction moves generalizing w with
  | nil => exact h
  | cons m moves ih => exact ih (h.move hclean.1) hclean.2

theorem undisturbed_append {moves moves' : List (Move Origin Cert)}
    (h : Undisturbed digest w (moves ++ moves')) :
    Undisturbed digest w moves ∧ Undisturbed digest (w.run digest moves) moves' := by
  induction moves generalizing w with
  | nil => exact ⟨trivial, h⟩
  | cons m moves ih => exact ⟨⟨h.1, (ih h.2).1⟩, (ih h.2).2⟩

end Cinder.Pins
