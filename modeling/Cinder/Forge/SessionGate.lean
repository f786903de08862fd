import Cinder.Forge.SessionStorage
import Cinder.Programs.MoveRuns
import Mathlib.Data.List.Perm.Basic
set_option autoImplicit false

/-!
The gate of the student app: who is signed in, at which Host, and which session is saved, while
answers of the Host and operations on the saved session come in at any time.
-/

namespace Cinder.Forge
open Cinder.Programs

structure StoredSession (U : Type) where
  baseUrl : String
  token : String
  user : U
  deriving DecidableEq

/-- A request that the Host has not answered, with what its caller has noted of the state. -/
inductive GateRequest (U : Type) where
  | me (generation : ℕ) (session : StoredSession U)
  | login (generation : ℕ) (baseUrl : String)
  | changePassword (generation : ℕ) (baseUrl : String) (token : Option String)
  deriving DecidableEq

/-- Any answer but success is `refused`, unless none came. A token only comes with a login. -/
inductive GateAnswer (U : Type) where
  | granted (token : String) (user : U)
  | offline
  | refused
  deriving DecidableEq

/-- An operation on the saved session that has not ended: what its caller does next. -/
inductive GateWrite (U : Type) where
  | refreshed (generation : ℕ) (session : StoredSession U)
  | loggedIn (generation : ℕ) (session : StoredSession U)
  | passwordChanged (generation : ℕ) (session : StoredSession U)
  | signedOut
  | hostChanged (baseUrl : String)
  deriving DecidableEq

structure Gate (U : Type) where
  loading : Bool
  generation : ℕ
  baseUrl : String
  user : Option U
  token : Option String
  requests : List (GateRequest U)
  waiting : List (GateWrite U)
  kept : Option (StoredSession U)
  deriving DecidableEq

inductive GateMove (U : Type) where
  | refresh
  | login
  | changePassword
  | switchAccount
  | saveConnection (nextUrl : String)
  | answer (i : ℕ) (a : GateAnswer U)
  | store (works : Bool)
  deriving DecidableEq

section Model
variable {U : Type}

def GateRequest.generation : GateRequest U → ℕ
  | me generation _ => generation
  | login generation _ => generation
  | changePassword generation _ _ => generation

/-- The session that is to be saved. The other operations delete the saved one. -/
def GateWrite.session : GateWrite U → Option (StoredSession U)
  | refreshed _ session => some session
  | loggedIn _ session => some session
  | passwordChanged _ session => some session
  | signedOut => none
  | hostChanged _ => none

/-- The generation that must still be the current one for the caller to go on. -/
def GateWrite.generation : GateWrite U → Option ℕ
  | refreshed generation _ => some generation
  | loggedIn generation _ => some generation
  | passwordChanged generation _ => some generation
  | signedOut => none
  | hostChanged _ => none

def GateRequest.isLogin (generation : ℕ) : GateRequest U → Bool
  | login generation' _ => generation' = generation
  | _ => false

def GateWrite.isLogin (generation : ℕ) : GateWrite U → Bool
  | loggedIn generation' _ => generation' = generation
  | _ => false

def GateWrite.isHostChange : GateWrite U → Bool
  | hostChanged _ => true
  | _ => false

namespace Gate

def refreshing (g : Gate U) : Bool :=
  (g.requests.any fun
    | .me generation _ => generation = g.generation
    | _ => false) ||
  g.waiting.any fun
    | .refreshed generation _ => generation = g.generation
    | _ => false

def signingIn (g : Gate U) : Bool :=
  g.requests.any (·.isLogin g.generation) || g.waiting.any (·.isLogin g.generation)

def enqueue (g : Gate U) (w : GateWrite U) : Gate U := { g with waiting := g.waiting ++ [w] }

def signOut (g : Gate U) (w : GateWrite U) : Gate U :=
  { g with generation := g.generation+1, user := none, token := none }.enqueue w

def refresh (g : Gate U) : Gate U :=
  match g.user, g.token with
  | some user, some token =>
    if g.refreshing then g
    else { g with requests := g.requests ++ [.me g.generation ⟨g.baseUrl, token, user⟩] }
  | _, _ => g

def login (g : Gate U) : Gate U :=
  if g.user.isNone ∧ ¬g.loading ∧ ¬g.signingIn then
    { g with
      generation := g.generation+1
      requests := g.requests ++ [.login (g.generation+1) g.baseUrl] }
  else g

def changePassword (g : Gate U) : Gate U :=
  if g.user.isSome ∧ ¬g.loading then
    { g with requests := g.requests ++ [.changePassword g.generation g.baseUrl g.token] }
  else g

def switchAccount (g : Gate U) : Gate U :=
  if g.user.isSome ∧ ¬g.loading then g.signOut .signedOut else g

def saveConnection (address : String → Option String) (g : Gate U) (nextUrl : String) : Gate U :=
  match address nextUrl with
  | none => g
  | some normalized =>
    if normalized = g.baseUrl then g
    else { g with loading := true }.signOut (.hostChanged normalized)

/-- How the caller of a request goes on with the answer. -/
def answered [DecidableEq U] (g : Gate U) : GateRequest U → GateAnswer U → Gate U
  | .me generation session, answer =>
    if generation = g.generation then
      match answer with
      | .granted _ current =>
        if current = session.user then g
        else g.enqueue (.refreshed generation { session with user := current })
      | .offline => g
      | .refused => g.signOut .signedOut
    else g
  | .login generation baseUrl, .granted token user =>
    if generation = g.generation then g.enqueue (.loggedIn generation ⟨baseUrl, token, user⟩) else g
  | .changePassword generation baseUrl token, .granted _ updated =>
    if generation = g.generation then
      match token with
      | some token => g.enqueue (.passwordChanged generation ⟨baseUrl, token, updated⟩)
      | none => { g with user := some updated }
    else g
  | _, _ => g

/-- How the caller of an operation goes on when it has ended. -/
def resumed (g : Gate U) (works : Bool) : GateWrite U → Gate U
  | .refreshed generation session =>
    if generation = g.generation then { g with user := some session.user } else g
  | .loggedIn generation session =>
    if generation = g.generation ∧ works then
      { g with token := some session.token, user := some session.user }
    else g
  | .passwordChanged generation session =>
    if generation = g.generation then { g with user := some session.user } else g
  | .signedOut => g
  | .hostChanged baseUrl => { g with baseUrl := baseUrl, loading := false }

def store (g : Gate U) (works : Bool) : Gate U :=
  match g.waiting with
  | [] => g
  | w :: rest =>
    { g with waiting := rest, kept := if works then w.session else g.kept }.resumed works w

def move [DecidableEq U] (address : String → Option String) (g : Gate U) : GateMove U → Gate U
  | .refresh => g.refresh
  | .login => g.login
  | .changePassword => g.changePassword
  | .switchAccount => g.switchAccount
  | .saveConnection nextUrl => g.saveConnection address nextUrl
  | .answer i a =>
    match g.requests[i]? with
    | none => g
    | some r => { g with requests := g.requests.eraseIdx i }.answered r a
  | .store works => g.store works

def signedOutAt (baseUrl : String) (generation : ℕ) : Gate U :=
  ⟨false, generation, baseUrl, none, none, [], [], none⟩

/-- The start: the saved session is asked about, and kept when no answer comes. One whose
address is none is deleted. -/
def boot (address : String → Option String) (host : String) (stored : Option (StoredSession U))
    (answer : GateAnswer U) (works : Bool) : Gate U :=
  match stored with
  | none => signedOutAt host 0
  | some session =>
    match address session.baseUrl with
    | none => signedOutAt host 0
    | some nextUrl =>
      match answer with
      | .granted _ current =>
        ⟨false, 0, nextUrl, some current, some session.token, [], [],
          some (if works then { session with user := current } else session)⟩
      | .offline => ⟨false, 0, nextUrl, some session.user, some session.token, [], [], some session⟩
      | .refused => signedOutAt nextUrl 1

end Gate
end Model

section Settling
variable {U : Type} {P Q : Option (StoredSession U) → Prop}

/-- `P` of what is saved once the operations have ended, whichever of the saves succeed. -/
def Settles (P : Option (StoredSession U) → Prop) :
    List (GateWrite U) → Option (StoredSession U) → Prop
  | [], kept => P kept
  | w :: ws, kept => Settles P ws w.session ∧ (w.session.isSome → Settles P ws kept)

theorem Settles.imp (h : ∀ kept, P kept → Q kept) {ws : List (GateWrite U)}
    {kept : Option (StoredSession U)} (hws : Settles P ws kept) : Settles Q ws kept := by
  induction ws generalizing kept with
  | nil => exact h kept hws
  | cons w ws ih => exact ⟨ih hws.1, fun hw => ih (hws.2 hw)⟩

theorem settles_append {ws vs : List (GateWrite U)} {kept : Option (StoredSession U)} :
    Settles P (ws ++ vs) kept ↔ Settles (Settles P vs) ws kept := by
  induction ws generalizing kept with
  | nil => rfl
  | cons w ws ih => simp [Settles, ih]

theorem settles_of_forall (h : ∀ kept, P kept) (ws : List (GateWrite U))
    (kept : Option (StoredSession U)) : Settles P ws kept := by
  induction ws generalizing kept with
  | nil => exact h kept
  | cons w ws ih => exact ⟨ih _, fun _ => ih _⟩

theorem settles_deleted {w : GateWrite U} (hw : w.session = none) (h : P none)
    (ws : List (GateWrite U)) (kept : Option (StoredSession U)) : Settles P (ws ++ [w]) kept := by
  rw [settles_append]
  exact settles_of_forall (fun _ => by simpa [Settles, hw] using h) ws kept

theorem Settles.saved {w : GateWrite U} {session : StoredSession U} (hw : w.session = some session)
    {ws : List (GateWrite U)} {kept : Option (StoredSession U)} (hws : Settles P ws kept)
    (h : P (some session)) : Settles P (ws ++ [w]) kept := by
  rw [settles_append]
  exact hws.imp fun kept hkept => by simp [Settles, hw, h, hkept]

end Settling

namespace Gate
variable {U : Type} {address : String → Option String} {g : Gate U}

/-- What is saved is the session that is shown: at the next start its address leads to the Host
in use. -/
def Fits (address : String → Option String) (g : Gate U) : Option (StoredSession U) → Prop
  | none => g.token = none
  | some session => g.token = some session.token ∧ address session.baseUrl = some g.baseUrl

/-- What holds of a request whose generation is the current one. -/
def Live (g : Gate U) : GateRequest U → Prop
  | .me _ session => g.token = some session.token ∧ session.baseUrl = g.baseUrl
  | .login _ baseUrl => g.token = none ∧ baseUrl = g.baseUrl ∧ g.loading = false ∧
      ∀ w ∈ g.waiting, w.isLogin g.generation = false
  | .changePassword _ baseUrl token => token = g.token ∧ g.token ≠ none ∧ baseUrl = g.baseUrl

def Steady (address : String → Option String) (g : Gate U) : Prop :=
  (∀ w ∈ g.waiting, w.isLogin g.generation = false) ∧ Settles (g.Fits address) g.waiting g.kept

def Entering (g : Gate U) : Prop :=
  ∃ before session, g.waiting = before ++ [.loggedIn g.generation session] ∧
    (∀ w ∈ before, w.isLogin g.generation = false) ∧ Settles (· = none) before g.kept ∧
    g.token = none ∧ session.baseUrl = g.baseUrl ∧ g.loading = false

structure Sound (address : String → Option String) (g : Gate U) : Prop where
  url : address g.baseUrl = some g.baseUrl
  user : g.user.isSome = g.token.isSome
  requestsPast : ∀ r ∈ g.requests, r.generation ≤ g.generation
  writesPast : ∀ w ∈ g.waiting, ∀ n, w.generation = some n → n ≤ g.generation
  live : ∀ r ∈ g.requests, r.generation = g.generation → g.Live r
  updates : ∀ w ∈ g.waiting, w.generation = some g.generation → w.isLogin g.generation = false →
    g.token ≠ none
  hosts : ∀ baseUrl, .hostChanged baseUrl ∈ g.waiting →
    g.loading = true ∧ g.token = none ∧ address baseUrl = some baseUrl
  oneHost : g.waiting.countP (·.isHostChange) ≤ 1
  oneLogin : g.requests.countP (·.isLogin g.generation) ≤ 1
  saved : g.Steady address ∨ g.Entering

theorem fits_signedOut (h : g.token = none) (kept : Option (StoredSession U)) :
    g.Fits address kept ↔ kept = none := by
  cases kept <;> simp [Fits, h]

/-- Signed out, the only callers that are not stale are logins whose answer has not come. -/
theorem Sound.live_signedOut (h : g.Sound address) (htoken : g.token = none)
    {r : GateRequest U} (hr : r ∈ g.requests) (hr' : r.generation = g.generation) :
    r.isLogin g.generation = true ∧ g.loading = false ∧
      ∀ w ∈ g.waiting, w.isLogin g.generation = false := by
  have hlive := h.live r hr hr'
  cases r with
  | me generation session => simp [Live, htoken] at hlive
  | login generation baseUrl => exact ⟨decide_eq_true hr', hlive.2.2⟩
  | changePassword generation baseUrl token => exact absurd htoken hlive.2.1

theorem Sound.steady (h : g.Sound address) (hnone : g.token ≠ none) : g.Steady address :=
  h.saved.resolve_right fun ⟨_, _, _, _, _, htoken, _⟩ => hnone htoken

theorem isLogin_eq_false {w : GateWrite U} {n m : ℕ} (hw : ∀ k, w.generation = some k → k ≤ n)
    (hm : n < m) : w.isLogin m = false := by
  cases w with
  | loggedIn generation session =>
    have hle := hw generation rfl
    simp only [GateWrite.isLogin, decide_eq_false_iff_not]
    omega
  | _ => rfl

theorem request_isLogin_eq_false {r : GateRequest U} {n : ℕ} (hr : r.generation < n) :
    r.isLogin n = false := by
  cases r with
  | login generation baseUrl =>
    simp only [GateRequest.generation] at hr
    simp only [GateRequest.isLogin, decide_eq_false_iff_not]
    omega
  | _ => rfl

theorem Sound.no_login (h : g.Sound address) :
    g.requests.countP (·.isLogin (g.generation+1)) = 0 := by
  rw [List.countP_eq_zero]
  intro r hr
  have hpast := h.requestsPast r hr
  simp [request_isLogin_eq_false (n := g.generation+1) (r := r) (by omega)]

theorem Sound.leave (h : g.Sound address) {loading : Bool} {w : GateWrite U}
    (hloading : g.loading = true → loading = true) (hw : w.session = none)
    (hgeneration : w.generation = none)
    (hhost : ∀ baseUrl, w = .hostChanged baseUrl → loading = true ∧ address baseUrl = some baseUrl)
    (hone : w.isHostChange = true → g.waiting.countP (·.isHostChange) = 0) :
    Sound address ({ g with loading := loading }.signOut w) := by
  have hstale : ∀ v ∈ g.waiting ++ [w], v.isLogin (g.generation+1) = false := by
    intro v hv
    rcases List.mem_append.mp hv with hv | hv
    · exact isLogin_eq_false (h.writesPast v hv) (by omega)
    · rw [List.mem_singleton.mp hv]
      exact isLogin_eq_false (n := 0) (fun k hk => by simp [hgeneration] at hk) (by omega)
  have hpast : ∀ v ∈ g.waiting ++ [w], ∀ n, v.generation = some n → n ≤ g.generation := by
    intro v hv n hn
    rcases List.mem_append.mp hv with hv | hv
    · exact h.writesPast v hv n hn
    · rw [List.mem_singleton.mp hv, hgeneration] at hn
      cases hn
  constructor
  · exact h.url
  · rfl
  · intro r hr
    exact (h.requestsPast r hr).trans (Nat.le_succ _)
  · intro v hv n hn
    exact (hpast v hv n hn).trans (Nat.le_succ _)
  · intro r hr hr'
    have hle := h.requestsPast r hr
    simp only [Gate.signOut, enqueue] at hr'
    omega
  · intro v hv hv' _
    have hle := hpast v hv _ hv'
    simp only [Gate.signOut, enqueue] at hle
    omega
  · intro baseUrl hbaseUrl
    rcases List.mem_append.mp hbaseUrl with hbaseUrl | hbaseUrl
    · obtain ⟨hbefore, -, haddress⟩ := h.hosts baseUrl hbaseUrl
      exact ⟨hloading hbefore, rfl, haddress⟩
    · obtain ⟨hnow, haddress⟩ := hhost baseUrl (List.mem_singleton.mp hbaseUrl).symm
      exact ⟨hnow, rfl, haddress⟩
  · have hcount := h.oneHost
    simp only [Gate.signOut, enqueue, List.countP_append, List.countP_singleton]
    split
    · next hchange => rw [hone hchange]
    · omega
  · exact h.no_login.le.trans (Nat.zero_le 1)
  · have hnone : Fits address ({ g with loading := loading }.signOut w) none := rfl
    exact .inl ⟨hstale, settles_deleted hw hnone _ _⟩

theorem Sound.signOut (h : g.Sound address) : (g.signOut .signedOut).Sound address :=
  h.leave id rfl rfl (fun _ heq => by cases heq) fun hchange => by cases hchange

theorem Sound.signedOut (h : g.Sound address) (huser : g.user.isNone = true) : g.token = none := by
  have hsame := h.user
  cases ht : g.token with
  | none => rfl
  | some token => simp_all

theorem Sound.steady_of_not_signingIn (h : g.Sound address) (hsigning : ¬g.signingIn = true) :
    g.Steady address := by
  refine h.saved.resolve_right fun ⟨before, session, hwaiting, _⟩ => hsigning ?_
  simp [signingIn, hwaiting, GateWrite.isLogin]

theorem Sound.login (h : g.Sound address) : g.login.Sound address := by
  unfold Gate.login
  split
  · next hguard =>
    obtain ⟨huser, hloading, hsigning⟩ := hguard
    have htoken := h.signedOut huser
    obtain ⟨-, hsettles⟩ := h.steady_of_not_signingIn hsigning
    have hstale : ∀ w ∈ g.waiting, w.isLogin (g.generation+1) = false := fun w hw =>
      isLogin_eq_false (h.writesPast w hw) (by omega)
    refine { h with
      requestsPast := ?_, writesPast := ?_, live := ?_, updates := ?_, oneLogin := ?_, saved := ?_ }
    · intro r hr
      rcases List.mem_append.mp hr with hr | hr
      · exact (h.requestsPast r hr).trans (Nat.le_succ _)
      · rw [List.mem_singleton.mp hr]
        exact le_rfl
    · intro w hw n hn
      exact (h.writesPast w hw n hn).trans (Nat.le_succ _)
    · intro r hr hr'
      rcases List.mem_append.mp hr with hr | hr
      · have hle := h.requestsPast r hr
        simp only at hr'
        omega
      · rw [List.mem_singleton.mp hr]
        exact ⟨htoken, rfl, by simpa using hloading, hstale⟩
    · intro w hw hw' _
      have hle := h.writesPast w hw _ hw'
      simp only at hle
      omega
    · rw [List.countP_append, h.no_login, List.countP_singleton]
      split <;> omega
    · exact .inl ⟨hstale, hsettles⟩
  · exact h

theorem Sound.ask (h : g.Sound address) {r : GateRequest U} (hr : r.generation = g.generation)
    (hlive : g.Live r) (hlogin : r.isLogin g.generation = false) :
    Sound address { g with requests := g.requests ++ [r] } := by
  refine { h with requestsPast := ?_, live := ?_, oneLogin := ?_ }
  · intro v hv
    rcases List.mem_append.mp hv with hv | hv
    · exact h.requestsPast v hv
    · rw [List.mem_singleton.mp hv, hr]
  · intro v hv hv'
    rcases List.mem_append.mp hv with hv | hv
    · exact h.live v hv hv'
    · rw [List.mem_singleton.mp hv]
      exact hlive
  · have hone := h.oneLogin
    simpa [List.countP_append, List.countP_singleton, hlogin] using hone

theorem Sound.refresh (h : g.Sound address) : g.refresh.Sound address := by
  unfold Gate.refresh
  split
  · next user token huser htoken =>
    split
    · exact h
    · exact h.ask rfl ⟨htoken, rfl⟩ rfl
  · exact h

theorem Sound.changePassword (h : g.Sound address) : g.changePassword.Sound address := by
  unfold Gate.changePassword
  split
  · next hguard =>
    have htoken : g.token ≠ none := by
      have hsame := h.user
      intro hnone
      simp [hnone, hguard.1] at hsame
    exact h.ask rfl ⟨rfl, htoken, rfl⟩ rfl
  · exact h

theorem Sound.switchAccount (h : g.Sound address) : g.switchAccount.Sound address := by
  unfold Gate.switchAccount
  split
  · exact h.signOut
  · exact h

theorem Sound.saveConnection (h : g.Sound address) {nextUrl : String}
    (haddress : ∀ u v, address u = some v → address v = some v)
    (hone : ∀ w ∈ g.waiting, w.isHostChange = false) :
    (g.saveConnection address nextUrl).Sound address := by
  unfold Gate.saveConnection
  split
  · exact h
  · next normalized hnormalized =>
    split
    · exact h
    · have hnone : g.waiting.countP (·.isHostChange) = 0 := by
        rw [List.countP_eq_zero]
        intro w hw
        simp [hone w hw]
      refine h.leave (fun _ => rfl) rfl rfl (fun baseUrl heq => ?_) fun _ => hnone
      cases heq
      exact ⟨rfl, haddress _ _ hnormalized⟩

theorem answered_stale [DecidableEq U] {r : GateRequest U} (hr : r.generation ≠ g.generation)
    (answer : GateAnswer U) : g.answered r answer = g := by
  cases r <;> simp only [GateRequest.generation] at hr <;> cases answer <;> simp [answered, hr]

theorem resumed_stale {w : GateWrite U} {n : ℕ} (hw : w.generation = some n)
    (hn : n ≠ g.generation) (works : Bool) : g.resumed works w = g := by
  cases w <;> cases hw <;> simp [resumed, hn]

theorem Sound.taken (h : g.Sound address) {r : GateRequest U} {rest : List (GateRequest U)}
    (hperm : (r :: rest).Perm g.requests) : Sound address { g with requests := rest } := by
  have hsub : ∀ v ∈ rest, v ∈ g.requests := fun v hv => hperm.subset (List.mem_cons_of_mem _ hv)
  refine { h with requestsPast := ?_, live := ?_, oneLogin := ?_ }
  · exact fun v hv => h.requestsPast v (hsub v hv)
  · exact fun v hv => h.live v (hsub v hv)
  · have hcount := hperm.countP_eq (·.isLogin g.generation)
    have hone := h.oneLogin
    rw [List.countP_cons] at hcount
    have hle : rest.countP (·.isLogin g.generation) ≤ 1 := by omega
    exact hle

theorem Sound.enqueue (h : g.Sound address) {w : GateWrite U}
    (hgeneration : w.generation = some g.generation)
    (hlive : ∀ r ∈ g.requests, r.generation = g.generation → (g.enqueue w).Live r)
    (hupdate : w.isLogin g.generation = false → g.token ≠ none)
    (hsaved : (g.enqueue w).Steady address ∨ (g.enqueue w).Entering) :
    (g.enqueue w).Sound address := by
  have hkind : w.isHostChange = false := by
    cases w <;> first | rfl | cases hgeneration
  refine { h with
    writesPast := ?_, live := hlive, updates := ?_, hosts := ?_, oneHost := ?_, saved := hsaved }
  · intro v hv n hn
    rcases List.mem_append.mp hv with hv | hv
    · exact h.writesPast v hv n hn
    · rw [List.mem_singleton.mp hv, hgeneration] at hn
      cases hn
      exact le_rfl
  · intro v hv hv' hlogin
    rcases List.mem_append.mp hv with hv | hv
    · exact h.updates v hv hv' hlogin
    · rw [List.mem_singleton.mp hv] at hlogin
      exact hupdate hlogin
  · intro baseUrl hbaseUrl
    rcases List.mem_append.mp hbaseUrl with hbaseUrl | hbaseUrl
    · exact h.hosts baseUrl hbaseUrl
    · rw [← List.mem_singleton.mp hbaseUrl] at hkind
      cases hkind
  · have hcount := h.oneHost
    simpa [Gate.enqueue, List.countP_append, List.countP_singleton, hkind] using hcount

theorem Sound.save (h : g.Sound address) {w : GateWrite U} {session : StoredSession U}
    (hw : w.session = some session) (hgeneration : w.generation = some g.generation)
    (hlogin : w.isLogin g.generation = false) (htoken : g.token = some session.token)
    (hurl : session.baseUrl = g.baseUrl) : (g.enqueue w).Sound address := by
  have hsome : g.token ≠ none := by
    simp [htoken]
  obtain ⟨hnone, hsettles⟩ := h.steady hsome
  have hfits : g.Fits address (some session) := ⟨htoken, by rw [hurl, h.url]⟩
  refine h.enqueue hgeneration (fun r hr hr' => ?_) (fun _ => hsome)
    (.inl ⟨?_, hsettles.saved hw hfits⟩)
  · have hlive := h.live r hr hr'
    cases r with
    | me generation session => exact hlive
    | login generation baseUrl => exact absurd hlive.1 hsome
    | changePassword generation baseUrl token => exact hlive
  · exact List.forall_mem_append.mpr ⟨hnone, by simpa [Gate.enqueue] using hlogin⟩

theorem Sound.enter (h : g.Sound address) (session : StoredSession U)
    (hlive : g.Live (.login g.generation session.baseUrl))
    (hrequests : g.requests.countP (·.isLogin g.generation) = 0) :
    (g.enqueue (.loggedIn g.generation session)).Sound address := by
  obtain ⟨htoken, hurl, hloading, hnone⟩ := hlive
  have hsteady : g.Steady address := h.saved.resolve_right fun ⟨before, other, hwaiting, _⟩ => by
    have hfalse := hnone (.loggedIn g.generation other) (by simp [hwaiting])
    simp [GateWrite.isLogin] at hfalse
  have hsettles : Settles (· = none) g.waiting g.kept :=
    hsteady.2.imp fun kept hkept => (fits_signedOut htoken kept).mp hkept
  refine h.enqueue rfl (fun r hr hr' => ?_) (fun hlogin => by simp [GateWrite.isLogin] at hlogin)
    (.inr ⟨g.waiting, session, rfl, hnone, hsettles, htoken, hurl, hloading⟩)
  have hlive := h.live r hr hr'
  cases r with
  | me generation session => exact hlive
  | login generation baseUrl =>
    have hfalse := List.countP_eq_zero.mp hrequests _ hr
    simp only [GateRequest.generation] at hr'
    simp [GateRequest.isLogin, hr'] at hfalse
  | changePassword generation baseUrl token => exact hlive

theorem Sound.answered [DecidableEq U] (h : g.Sound address) {r : GateRequest U}
    {rest : List (GateRequest U)} (hperm : (r :: rest).Perm g.requests) (answer : GateAnswer U) :
    (({ g with requests := rest } : Gate U).answered r answer).Sound address := by
  have hrest := h.taken hperm
  have hlive := h.live r (hperm.subset List.mem_cons_self)
  cases r with
  | me generation session =>
    by_cases hgeneration : generation = g.generation
    · obtain ⟨htoken, hurl⟩ := hlive hgeneration
      subst hgeneration
      cases answer with
      | granted token current =>
        by_cases hsame : current = session.user
        · simpa [Gate.answered, hsame] using hrest
        · simp only [Gate.answered, hsame]
          exact hrest.save rfl rfl rfl htoken hurl
      | offline => simpa [Gate.answered] using hrest
      | refused => simpa [Gate.answered] using hrest.signOut
    · simpa [Gate.answered, hgeneration] using hrest
  | login generation baseUrl =>
    cases answer with
    | granted token user =>
      by_cases hgeneration : generation = g.generation
      · have hlogin := hlive hgeneration
        subst hgeneration
        have hcount := hperm.countP_eq (·.isLogin g.generation)
        have hone := h.oneLogin
        rw [List.countP_cons, if_pos (by simp [GateRequest.isLogin])] at hcount
        simp only [Gate.answered]
        refine hrest.enter ⟨baseUrl, token, user⟩ hlogin ?_
        have hzero : rest.countP (·.isLogin g.generation) = 0 := by omega
        exact hzero
      · simpa [Gate.answered, hgeneration] using hrest
    | offline | refused => exact hrest
  | changePassword generation baseUrl token =>
    cases answer with
    | granted granted updated =>
      by_cases hgeneration : generation = g.generation
      · obtain ⟨htoken, hsome, hurl⟩ := hlive hgeneration
        subst hgeneration
        cases token with
        | some token =>
          simp only [Gate.answered]
          exact hrest.save rfl rfl rfl htoken.symm hurl
        | none => exact absurd htoken.symm hsome
      · simpa [Gate.answered, hgeneration] using hrest
    | offline | refused => exact hrest

theorem Settles.written {P : Option (StoredSession U) → Prop} {w : GateWrite U}
    {rest : List (GateWrite U)} {kept : Option (StoredSession U)} (h : Settles P (w :: rest) kept)
    {works : Bool} (hworks : works = true ∨ w.session ≠ none) :
    Settles P rest (if works then w.session else kept) := by
  cases works with
  | true => exact h.1
  | false => exact h.2 (Option.isSome_iff_ne_none.mpr (hworks.resolve_left (by simp)))

theorem Sound.written (h : g.Sound address) {w : GateWrite U} {rest : List (GateWrite U)}
    (hwaiting : g.waiting = w :: rest) (hlogin : w.isLogin g.generation = false) {works : Bool}
    (hworks : works = true ∨ w.session ≠ none) :
    Sound address { g with waiting := rest, kept := if works then w.session else g.kept } := by
  have hsub : ∀ v ∈ rest, v ∈ g.waiting := fun v hv => by simp [hwaiting, hv]
  refine { h with
    writesPast := ?_, live := ?_, updates := ?_, hosts := ?_, oneHost := ?_, saved := ?_ }
  · exact fun v hv => h.writesPast v (hsub v hv)
  · intro r hr hr'
    have hlive := h.live r hr hr'
    cases r with
    | me generation session => exact hlive
    | login generation baseUrl =>
      obtain ⟨htoken, hurl, hloading, hnone⟩ := hlive
      exact ⟨htoken, hurl, hloading, fun v hv => hnone v (hsub v hv)⟩
    | changePassword generation baseUrl token => exact hlive
  · exact fun v hv => h.updates v (hsub v hv)
  · exact fun baseUrl hbaseUrl => h.hosts baseUrl (hsub _ hbaseUrl)
  · have hone := h.oneHost
    rw [hwaiting, List.countP_cons] at hone
    have hle : rest.countP (·.isHostChange) ≤ 1 := by omega
    exact hle
  · rcases h.saved with ⟨hnone, hsettles⟩ | ⟨before, session, hsplit, hnone, hsettles, hrest⟩
    · rw [hwaiting] at hsettles
      exact .inl ⟨fun v hv => hnone v (hsub v hv), Settles.written hsettles hworks⟩
    · cases before with
      | nil =>
        rw [hwaiting] at hsplit
        simp [(List.cons_eq_cons.mp hsplit).1, GateWrite.isLogin] at hlogin
      | cons v before =>
        rw [hwaiting] at hsplit
        obtain ⟨rfl, rfl⟩ := List.cons_eq_cons.mp hsplit
        exact .inr ⟨before, session, rfl, fun u hu => hnone u (List.mem_cons_of_mem _ hu),
          Settles.written hsettles hworks, hrest⟩

theorem Sound.setUser (h : g.Sound address) (htoken : g.token ≠ none) (user : U) :
    Sound address { g with user := some user } := by
  refine { h with user := ?_ }
  simpa using (Option.isSome_iff_ne_none.mpr htoken).symm

theorem Sound.setHost (h : g.Sound address) {baseUrl : String} (htoken : g.token = none)
    (hloading : g.loading = true) (hurl : address baseUrl = some baseUrl)
    (hlast : ∀ w ∈ g.waiting, w.isHostChange = false) :
    Sound address { g with baseUrl := baseUrl, loading := false } := by
  refine { h with url := hurl, live := ?_, hosts := ?_, saved := ?_ }
  · intro r hr hr'
    have hopen := (h.live_signedOut htoken hr hr').2.1
    simp [hloading] at hopen
  · intro url hmem
    cases hlast _ hmem
  · rcases h.saved with ⟨hnone, hsettles⟩ | ⟨_, _, _, _, _, _, _, hopen⟩
    · refine .inl ⟨hnone, hsettles.imp fun kept hkept => ?_⟩
      have hnothing := (fits_signedOut htoken kept).mp hkept
      subst hnothing
      exact htoken
    · simp [hloading] at hopen

theorem Sound.entering (h : g.Sound address) {session : StoredSession U}
    {rest : List (GateWrite U)} (hwaiting : g.waiting = .loggedIn g.generation session :: rest) :
    rest = [] ∧ g.kept = none ∧ g.token = none ∧ session.baseUrl = g.baseUrl := by
  rcases h.saved with ⟨hnone, -⟩ | ⟨before, last, hsplit, hnone, hsettles, htoken, hurl, -⟩
  · have hfalse := hnone (.loggedIn g.generation session) (by simp [hwaiting])
    simp [GateWrite.isLogin] at hfalse
  · rw [hwaiting] at hsplit
    cases before with
    | cons v before =>
      have hfalse := hnone v List.mem_cons_self
      simp [← (List.cons_eq_cons.mp hsplit).1, GateWrite.isLogin] at hfalse
    | nil =>
      obtain ⟨hsame, hrest⟩ := List.cons_eq_cons.mp hsplit
      cases hsame
      exact ⟨hrest, hsettles, htoken, hurl⟩

theorem Sound.entered (h : g.Sound address) {session : StoredSession U}
    {rest : List (GateWrite U)} (hwaiting : g.waiting = .loggedIn g.generation session :: rest)
    (works : Bool) : (g.store works).Sound address := by
  obtain ⟨rfl, hkept, htoken, hurl⟩ := h.entering hwaiting
  have hstale : ∀ r ∈ g.requests, r.generation ≠ g.generation := fun r hr hr' => by
    have hnone := (h.live_signedOut htoken hr hr').2.2
    simp [hwaiting, GateWrite.isLogin] at hnone
  have hfits : address session.baseUrl = some g.baseUrl := by
    rw [hurl, h.url]
  cases works with
  | true =>
    simp only [Gate.store, hwaiting, Gate.resumed, and_self, if_true, GateWrite.session]
    exact ⟨h.url, rfl, h.requestsPast, by simp, fun r hr hr' => absurd hr' (hstale r hr), by simp,
      by simp, by simp, h.oneLogin, .inl ⟨by simp, rfl, hfits⟩⟩
  | false =>
    simp only [Gate.store, hwaiting, Gate.resumed, Bool.false_eq_true, and_false, if_false]
    exact ⟨h.url, h.user, h.requestsPast, by simp, fun r hr hr' => absurd hr' (hstale r hr),
      by simp, by simp, by simp, h.oneLogin,
      .inl ⟨by simp, by simpa [Settles, hkept, Fits] using htoken⟩⟩

theorem Sound.store (h : g.Sound address) {works : Bool}
    (hworks : works = true ∨ ∀ w ∈ g.waiting.head?, w.session ≠ none) :
    (g.store works).Sound address := by
  cases hwaiting : g.waiting with
  | nil => simpa [Gate.store, hwaiting] using h
  | cons w rest =>
    have hmem : w ∈ g.waiting := by simp [hwaiting]
    have hend : works = true ∨ w.session ≠ none := by simpa [hwaiting] using hworks
    cases hlogin : w.isLogin g.generation with
    | true =>
      cases w with
      | loggedIn generation session =>
        have hgeneration : generation = g.generation := by simpa [GateWrite.isLogin] using hlogin
        exact h.entered (hgeneration ▸ hwaiting) works
      | _ => cases hlogin
    | false =>
      have hnext := h.written hwaiting hlogin hend
      cases w with
      | loggedIn generation session =>
        have hgeneration : generation ≠ g.generation := by simpa [GateWrite.isLogin] using hlogin
        simpa [Gate.store, hwaiting, Gate.resumed, hgeneration] using hnext
      | refreshed generation session | passwordChanged generation session =>
        by_cases hgeneration : generation = g.generation
        · have htoken := h.updates _ hmem (by rw [← hgeneration]; rfl) rfl
          simpa [Gate.store, hwaiting, Gate.resumed, hgeneration] using
            hnext.setUser htoken session.user
        · simpa [Gate.store, hwaiting, Gate.resumed, hgeneration] using hnext
      | signedOut => simpa [Gate.store, hwaiting, Gate.resumed] using hnext
      | hostChanged baseUrl =>
        obtain ⟨hloading, htoken, hurl⟩ := h.hosts baseUrl hmem
        have hlast : rest.countP (·.isHostChange) = 0 := by
          have hone := h.oneHost
          rw [hwaiting, List.countP_cons, if_pos (by simp [GateWrite.isHostChange])] at hone
          omega
        have hnone : ∀ w ∈ rest, w.isHostChange = false := fun w hw => by
          simpa using List.countP_eq_zero.mp hlast w hw
        simpa [Gate.store, hwaiting, Gate.resumed] using
          hnext.setHost htoken hloading hurl hnone

/-- The secret store deletes, and no Host change begins while another is under way. -/
def Orderly (g : Gate U) : GateMove U → Prop
  | .store works => works = true ∨ ∀ w ∈ g.waiting.head?, w.session ≠ none
  | .saveConnection _ => ∀ w ∈ g.waiting, w.isHostChange = false
  | _ => True

instance [DecidableEq U] (g : Gate U) : DecidablePred g.Orderly := fun m => by
  cases m <;> unfold Orderly <;> infer_instance

theorem Sound.move [DecidableEq U] (haddress : ∀ u v, address u = some v → address v = some v)
    (h : g.Sound address) {m : GateMove U} (hm : g.Orderly m) :
    (g.move address m).Sound address := by
  cases m with
  | refresh => exact h.refresh
  | login => exact h.login
  | changePassword => exact h.changePassword
  | switchAccount => exact h.switchAccount
  | saveConnection nextUrl => exact h.saveConnection haddress hm
  | answer i a =>
    simp only [Gate.move]
    split
    · exact h
    · next r hr =>
      obtain ⟨hi, rfl⟩ := List.getElem?_eq_some_iff.mp hr
      exact h.answered (List.getElem_cons_eraseIdx_perm hi) a
  | store works => exact h.store hm

theorem sound_signedOutAt {baseUrl : String} (h : address baseUrl = some baseUrl) (n : ℕ) :
    (signedOutAt baseUrl n : Gate U).Sound address := by
  constructor <;> simp [signedOutAt, h, Steady, Settles, Fits]

theorem sound_boot (haddress : ∀ u v, address u = some v → address v = some v) {host : String}
    (hhost : address host = some host) (stored : Option (StoredSession U)) (answer : GateAnswer U)
    (works : Bool) : (boot address host stored answer works).Sound address := by
  unfold boot
  split
  · exact sound_signedOutAt hhost 0
  · next session =>
    split
    · exact sound_signedOutAt hhost 0
    · next nextUrl hnext =>
      have hurl := haddress _ _ hnext
      split
      · constructor <;> cases works <;> simp [hurl, hnext, Steady, Settles, Fits]
      · constructor <;> simp [hurl, hnext, Steady, Settles, Fits]
      · exact sound_signedOutAt hurl 1

theorem sound_run [DecidableEq U] (haddress : ∀ u v, address u = some v → address v = some v)
    {host : String} (hhost : address host = some host) {stored : Option (StoredSession U)}
    {answer : GateAnswer U} {works : Bool} {ms : List (GateMove U)}
    (hms : RunMeets (move address) Orderly (boot address host stored answer works) ms) :
    (ms.foldl (move address) (boot address host stored answer works)).Sound address :=
  hms.inv (fun _ _ h hm => h.move haddress hm) (sound_boot haddress hhost stored answer works)

theorem Sound.fits (h : g.Sound address) (hwaiting : g.waiting = []) : g.Fits address g.kept := by
  rcases h.saved with ⟨-, hsettles⟩ | ⟨before, session, hsplit, _⟩
  · simpa [hwaiting, Settles] using hsettles
  · simp [hwaiting] at hsplit

/-- Whoever signs in, signs out or changes the Host, and however late answers come: when no
operation on the saved session is under way, the next start away from the Host shows the account
that is shown now, or the sign-in screen if none is. -/
theorem next_start_shows_the_same [DecidableEq U]
    (haddress : ∀ u v, address u = some v → address v = some v) {host : String}
    (hhost : address host = some host) (stored : Option (StoredSession U)) (answer : GateAnswer U)
    (works : Bool) {ms : List (GateMove U)}
    (hms : RunMeets (move address) Orderly (boot address host stored answer works) ms) :
    let g := ms.foldl (move address) (boot address host stored answer works)
    let next := boot address host g.kept .offline true
    g.waiting = [] → next.token = g.token ∧ next.user.isSome = g.user.isSome ∧
      (g.user.isSome → next.baseUrl = g.baseUrl) := by
  intro g next hwaiting
  have hg : g.Sound address := sound_run haddress hhost hms
  have hfits := hg.fits hwaiting
  have huser := hg.user
  cases hkept : g.kept with
  | none =>
    have htoken : g.token = none := by simpa [hkept, Fits] using hfits
    simp only [htoken, Option.isSome_none] at huser
    simp [next, hkept, boot, signedOutAt, htoken, huser]
  | some session =>
    obtain ⟨htoken, hurl⟩ : g.token = some session.token ∧
        address session.baseUrl = some g.baseUrl := by simpa [hkept, Fits] using hfits
    simp only [htoken, Option.isSome_some] at huser
    simp [next, hkept, boot, hurl, htoken, huser]

theorem next_start_shows_the_same_after_switching :
    let g : Gate String := [.login, .answer 0 (.granted "1" "mia"), .store true, .refresh,
      .switchAccount, .login, .answer 0 (.granted "" "mia k"), .answer 0 (.granted "2" "ben"),
      .store true, .store true].foldl (move some) (boot some "http://127.0.0.1:7373" none .offline true)
    let next := boot some "http://127.0.0.1:7373" g.kept .offline true
    next.token = g.token ∧ next.user.isSome = g.user.isSome ∧
      (g.user.isSome → next.baseUrl = g.baseUrl) :=
  next_start_shows_the_same (fun _ _ _ => rfl) rfl none .offline true (by decide) (by decide)

def Away (g : Gate U) : Prop := g.token = none ∧ g.signingIn = false

theorem Away.requests (h : g.Away) : ∀ r ∈ g.requests, r.isLogin g.generation = false := by
  have hnone := (Bool.or_eq_false_iff.mp h.2).1
  exact fun r hr => by simpa using List.any_eq_false.mp hnone r hr

theorem Away.writes (h : g.Away) : ∀ w ∈ g.waiting, w.isLogin g.generation = false := by
  have hnone := (Bool.or_eq_false_iff.mp h.2).2
  exact fun w hw => by simpa using List.any_eq_false.mp hnone w hw

theorem away_of_forall (htoken : g.token = none)
    (hrequests : ∀ r ∈ g.requests, r.isLogin g.generation = false)
    (hwrites : ∀ w ∈ g.waiting, w.isLogin g.generation = false) : g.Away := by
  refine ⟨htoken, Bool.or_eq_false_iff.mpr ⟨?_, ?_⟩⟩
  · exact List.any_eq_false.mpr fun r hr => by simp [hrequests r hr]
  · exact List.any_eq_false.mpr fun w hw => by simp [hwrites w hw]

theorem Sound.away_signOut (h : g.Sound address) (loading : Bool) {w : GateWrite U}
    (hw : w.generation = none) : ({ g with loading := loading }.signOut w).Away := by
  refine away_of_forall rfl (fun r hr => ?_) fun v hv => ?_
  · have hle := h.requestsPast r hr
    exact request_isLogin_eq_false (n := g.generation+1) (by omega)
  · rcases List.mem_append.mp hv with hv | hv
    · exact isLogin_eq_false (m := g.generation+1) (h.writesPast v hv) (by omega)
    · rw [List.mem_singleton.mp hv]
      cases w <;> first | rfl | cases hw

theorem Sound.away_switchAccount (h : g.Sound address) (huser : g.user.isSome)
    (hloading : g.loading = false) : g.switchAccount.Away := by
  have hleft : (g.signOut .signedOut).Away := h.away_signOut g.loading rfl
  simpa [Gate.switchAccount, huser, hloading] using hleft

theorem Away.answered [DecidableEq U] (haway : g.Away) (h : g.Sound address) {r : GateRequest U}
    {rest : List (GateRequest U)} (hperm : (r :: rest).Perm g.requests) (answer : GateAnswer U) :
    (({ g with requests := rest } : Gate U).answered r answer).Away := by
  have hr : r ∈ g.requests := hperm.subset List.mem_cons_self
  have hstale : r.generation ≠ g.generation := fun hr' => by
    have hlogin := (h.live_signedOut haway.1 hr hr').1
    simp [haway.requests r hr] at hlogin
  have hrest : Away { g with requests := rest } := away_of_forall haway.1
    (fun v hv => haway.requests v (hperm.subset (List.mem_cons_of_mem _ hv))) haway.writes
  rw [answered_stale (g := { g with requests := rest }) hstale]
  exact hrest

theorem Away.store (haway : g.Away) (h : g.Sound address) (works : Bool) :
    (g.store works).Away := by
  cases hwaiting : g.waiting with
  | nil => simpa [Gate.store, hwaiting] using haway
  | cons w rest =>
    have hmem : w ∈ g.waiting := by simp [hwaiting]
    have hstale : w.generation ≠ some g.generation := fun hw =>
      h.updates w hmem hw (haway.writes w hmem) haway.1
    have hrest : Away { g with waiting := rest, kept := if works then w.session else g.kept } :=
      away_of_forall haway.1 haway.requests fun v hv => haway.writes v (by simp [hwaiting, hv])
    simp only [Gate.store, hwaiting]
    cases hw : w.generation with
    | some n => rwa [resumed_stale hw fun hn => hstale (by rw [hw, ← hn])]
    | none =>
      cases w with
      | signedOut => exact hrest
      | hostChanged baseUrl => exact away_of_forall haway.1 hrest.requests hrest.writes
      | _ => cases hw

theorem Away.move [DecidableEq U] (haway : g.Away) (h : g.Sound address) {m : GateMove U}
    (hm : m ≠ .login) : (g.move address m).Away := by
  have huser : g.user = none := by
    have hsame := h.user
    rw [haway.1] at hsame
    simpa using hsame
  cases m with
  | refresh => simpa [Gate.move, Gate.refresh, huser] using haway
  | login => exact absurd rfl hm
  | changePassword => simpa [Gate.move, Gate.changePassword, huser] using haway
  | switchAccount => simpa [Gate.move, Gate.switchAccount, huser] using haway
  | saveConnection nextUrl =>
    simp only [Gate.move, Gate.saveConnection]
    split
    · exact haway
    · split
      · exact haway
      · exact h.away_signOut true rfl
  | answer i a =>
    simp only [Gate.move]
    split
    · exact haway
    · next r hr =>
      obtain ⟨hi, rfl⟩ := List.getElem?_eq_some_iff.mp hr
      exact haway.answered h (List.getElem_cons_eraseIdx_perm hi) a
  | store works => exact haway.store h works

theorem Away.run [DecidableEq U] (haddress : ∀ u v, address u = some v → address v = some v)
    (haway : g.Away) (h : g.Sound address) {ms : List (GateMove U)}
    (hms : RunMeets (Gate.move address) Orderly g ms) (hlogin : .login ∉ ms) :
    (ms.foldl (Gate.move address) g).Away := by
  induction ms generalizing g with
  | nil => exact haway
  | cons m ms ih =>
    obtain ⟨hm, hrest⟩ := hms
    rw [List.mem_cons, not_or] at hlogin
    exact ih (haway.move h fun heq => hlogin.1 heq.symm) (h.move haddress hm) hrest hlogin.2

/-- After a student has left the device, whatever is answered and saved later, nobody is signed in
until somebody signs in again, and nothing is left for the next start to find. -/
theorem signed_out_until_next_login [DecidableEq U]
    (haddress : ∀ u v, address u = some v → address v = some v) {host : String}
    (hhost : address host = some host) (stored : Option (StoredSession U)) (answer : GateAnswer U)
    (works : Bool) {ms ns : List (GateMove U)}
    (hrun : RunMeets (move address) Orderly (boot address host stored answer works)
      (ms ++ .switchAccount :: ns))
    (hshown : (ms.foldl (move address) (boot address host stored answer works)).user.isSome)
    (hopen : (ms.foldl (move address) (boot address host stored answer works)).loading = false)
    (hns : .login ∉ ns) :
    let g := (ms ++ .switchAccount :: ns).foldl (move address)
      (boot address host stored answer works)
    g.user = none ∧ g.token = none ∧ (g.waiting = [] → g.kept = none) := by
  intro g
  have hg : g.Sound address := sound_run haddress hhost hrun
  have haway : g.Away := by
    obtain ⟨hms, hrest⟩ := runMeets_append.mp hrun
    have hbefore := sound_run haddress hhost hms
    have hafter := hbefore.move haddress hrest.1
    simp only [g, List.foldl_append, List.foldl_cons]
    exact Away.run haddress (hbefore.away_switchAccount hshown hopen) hafter hrest.2 hns
  have huser := hg.user
  rw [haway.1] at huser
  refine ⟨by simpa using huser, haway.1, fun hwaiting => ?_⟩
  exact (fits_signedOut haway.1 _).mp (hg.fits hwaiting)

theorem signed_out_until_next_login_late_answer :
    let g : Gate String := List.foldl (move some)
      (boot some "http://127.0.0.1:7373" none .offline true)
      ([.login, .answer 0 (.granted "1" "mia"), .store true, .refresh] ++
        .switchAccount :: [.answer 0 (.granted "" "mia k"), .store true])
    g.user = none ∧ g.token = none ∧ (g.waiting = [] → g.kept = none) :=
  signed_out_until_next_login (fun _ _ _ => rfl) rfl none .offline true (by decide) (by decide)
    (by decide) (by decide)

end Gate

end Cinder.Forge
