import Cinder.HostClient.HostAddresses
import Cinder.Materials.MaterialStore
set_option autoImplicit false

/-!
What an app sends to its Host: one request over pinned HTTPS and, when that fails, a
question to the same computer whether an older Host runs there.
-/

namespace Cinder.HostClient
open Cinder.Host Cinder.Programs

structure RequestMeta where
  url : String
  method : String
  headers : List (String × String) := []
  timeoutMs : Option Nat := none
  deriving DecidableEq, Repr

structure HttpRequest where
  method : String
  url : Url
  headers : List (String × String)
  body : List UInt8
  timeoutMs : Option Nat
  deriving DecidableEq, Repr

inductive RedirectPolicy where
  | none
  | limited (hops : Nat)
  deriving DecidableEq, Repr

/-- The verifier expects a pin or takes any certificate; without one, the
certificate authorities of the system are asked. -/
structure Client (Pin : Type) where
  verifier : Option (Option Pin)
  redirect : RedirectPolicy
  timeoutMs : Option Nat

/-- A client that is kept for a Host: a redirect could only lead away from it. -/
abbrev Pinned (Pin : Type) := {c : Client Pin // c.redirect = .none}

abbrev Cache (Pin : Type) := String → Option (Pinned Pin)

inductive SendFailure where
  | timeout | other
  deriving DecidableEq, Repr

/-- A header is `none` when its value is no text. -/
structure ClientResponse where
  status : Nat
  headers : List (String × Option String)
  contentLength : Option Nat
  chunks : List (Except SendFailure (List UInt8))

structure Exchange (Pin : Type) where
  sent : List HttpRequest
  answer : Except SendFailure ClientResponse
  mismatch : Bool
  seen : Option Pin

/-- The HTTP client with its TLS, and the file of the pins. -/
structure Surroundings (Pin : Type) where
  method : String → Option String
  pin : String → Option Pin
  pinError : String → Pin → Option String
  buildError : Option Pin → Option String
  probeBuilds : Bool
  exchange : Client Pin → HttpRequest → Exchange Pin
  readJson : List UInt8 → Option Json

structure HostResponse where
  status : Nat
  headers : List (String × String)
  body : List UInt8
  deriving DecidableEq, Repr

structure Prepared where
  url : Url
  key : String
  method : String
  timeoutMs : Nat
  deriving DecidableEq, Repr

/-- How a `send` ends: what went out, the clients that are kept, and its result. -/
structure Sending (Pin : Type) where
  sent : List HttpRequest
  cache : Cache Pin
  result : Except HostRequestError HostResponse

def maxTimeoutMs : Nat := 300*1000

/-- A response larger than this is refused rather than buffered. -/
def maxResponseBytes : Nat := Materials.maxUploadBytes+1024*1024

def tooMuchData : HostRequestError := .invalid "The Host sent more data than Cinder accepts."

/-- The transport sets these itself; forwarding them could desync framing. -/
def transportHeaders : List String :=
  ["host", "content-length", "connection", "transfer-encoding"]

def sentHeaders (headers : List (String × String)) : List (String × String) :=
  headers.filter fun header => !transportHeaders.contains (lower header.1)

def receiveBody (body : List UInt8) :
    List (Except SendFailure (List UInt8)) → Except HostRequestError (List UInt8)
  | [] => .ok body
  | .ok chunk :: chunks =>
    if maxResponseBytes < body.length+chunk.length then .error tooMuchData
    else receiveBody (body ++ chunk) chunks
  | .error .timeout :: _ => .error .timeout
  | .error .other :: _ => .error .unreachable

def receive (response : ClientResponse) : Except HostRequestError HostResponse := do
  refuseIf (response.contentLength.any fun length => maxResponseBytes < length) tooMuchData
  let body ← receiveBody [] response.chunks
  return ⟨response.status, response.headers.filterMap fun (name, value) =>
    value.map fun value => (name, value), body⟩

section Send
variable {Pin : Type} (t : UrlText) (net : Surroundings Pin)

def buildClient (expected : Option Pin) : Except HostRequestError (Pinned Pin) :=
  match net.buildError expected with
  | some message => .error (.invalid message)
  | none => .ok ⟨⟨some expected, .none, none⟩, rfl⟩

/-- Cached clients keep connections alive between requests; one per Host. -/
def clientFor (cache : Cache Pin) (key : String) :
    Except HostRequestError (Pinned Pin × Cache Pin) :=
  match cache key with
  | some existing => .ok (existing, cache)
  | none => do
    let pinned ← buildClient net (net.pin key)
    return (pinned, Function.update cache key (some pinned))

def healthy (health : Json) : Bool :=
  match health with
  | .obj fields => fields.get "ok" = some (.bool true) &&
      ((fields.get "version").bind Json.asStr).isSome
  | _ => false

def probeClient : Client Pin := ⟨none, .none, some 3000⟩

def probeRequest (url : Url) : HttpRequest :=
  ⟨"GET", { url with path := "/api/health", query := none }, [], [], none⟩

def answersAsOldHost (url : Url) : List HttpRequest × Bool :=
  match url.setScheme "http" with
  | none => ([], false)
  | some probe =>
    if net.probeBuilds then
      let x := net.exchange probeClient (probeRequest probe)
      (x.sent, match x.answer with
        | .error _ => false
        | .ok response => 200 ≤ response.status && response.status < 300 &&
          ((response.chunks.mapM Except.toOption).bind fun chunks =>
            net.readJson chunks.flatten).any healthy)
    else ([], false)

def prepare (allowed : List String) (m : RequestMeta) : Except HostRequestError Prepared := do
  let url ← httpsUrl t m.url
  refuseIf (!isAllowed t url allowed) (.invalid "This app only talks to its own Cinder Host.")
  let key ← orElse (origin t url) (.invalid "The Host address has no port.")
  let method ← orElse (net.method (upper m.method)) (.invalid "Unsupported request method.")
  return ⟨url, key, method, min (m.timeoutMs.getD (30*1000)) maxTimeoutMs⟩

def Prepared.request (p : Prepared) (m : RequestMeta) (body : List UInt8) : HttpRequest :=
  ⟨p.method, p.url, sentHeaders m.headers, body, some p.timeoutMs⟩

/-- After a request that failed. A client that met another certificate is dropped. -/
def failed (cache : Cache Pin) (p : Prepared) (x : Exchange Pin) (failure : SendFailure) :
    Sending Pin :=
  if x.mismatch then ⟨x.sent, Function.update cache p.key none, .error .identityChanged⟩
  else match failure with
  | .timeout => ⟨x.sent, cache, .error .timeout⟩
  | .other =>
    let probe := answersAsOldHost net p.url
    ⟨x.sent ++ probe.1, cache, .error (if probe.2 then .hostOutdated else .unreachable)⟩

/-- First contact: the certificate that the Host presented is remembered. -/
def remember (cache : Cache Pin) (key : String) (client : Pinned Pin) (seen : Option Pin) :
    Except HostRequestError (Cache Pin) :=
  match client.1.verifier, seen with
  | some none, some seen =>
    match net.pinError key seen with
    | some message => .error (.invalid ("The Host could not be trusted: " ++ message))
    | none => do
      let pinned ← buildClient net (some seen)
      return Function.update cache key (some pinned)
  | _, _ => .ok cache

def send (cache : Cache Pin) (allowed : List String) (m : RequestMeta) (body : List UInt8) :
    Sending Pin :=
  match prepare t net allowed m with
  | .error e => ⟨[], cache, .error e⟩
  | .ok p =>
    match clientFor net cache p.key with
    | .error e => ⟨[], cache, .error e⟩
    | .ok (client, cache) =>
      let x := net.exchange client.1 (p.request m body)
      match x.answer with
      | .error failure => failed net cache p x failure
      | .ok response =>
        match remember net cache p.key client x.seen with
        | .error e => ⟨x.sent, cache, .error e⟩
        | .ok cache => ⟨x.sent, cache, receive response⟩

def Surroundings.StaysPut (net : Surroundings Pin) : Prop :=
  ∀ c r, c.redirect = .none → ∀ r' ∈ (net.exchange c r).sent, r' = r

def OnAllowedOrigin (allowed : List String) (u : Url) : Prop :=
  isLoopback u = true ∨ ∃ a ∈ allowed, ∃ v, httpsUrl t a = .ok v ∧ v.host = u.host ∧
    v.portOrKnownDefault = u.portOrKnownDefault

/-- A request has the caller's headers and body and goes to the address itself, or
it has none and goes to the same computer. -/
def KeepsCredentials (url : Url) (m : RequestMeta) (body : List UInt8) (r : HttpRequest) : Prop :=
  (r.url = url ∧ r.headers = sentHeaders m.headers ∧ r.body = body) ∨
    (r.url.host = url.host ∧ r.headers = [] ∧ r.body = [])

variable {t net} {allowed : List String} {m : RequestMeta} {body : List UInt8} {p : Prepared}
  {cache : Cache Pin} {r : HttpRequest}

theorem prepare_ok (standard : UrlStandard t) (h : prepare t net allowed m = .ok p) :
    httpsUrl t m.url = .ok p.url ∧ OnAllowedOrigin t allowed p.url := by
  obtain ⟨url, hurl, h⟩ := bind_eq_ok.mp h
  obtain ⟨_, hallowed, h⟩ := bind_eq_ok.mp h
  obtain ⟨key, -, h⟩ := bind_eq_ok.mp h
  obtain ⟨method, -, h⟩ := bind_eq_ok.mp h
  obtain rfl := Except.ok.inj h
  have hallowed : isAllowed t url allowed = true := by simpa using refuseIf_ok hallowed
  exact ⟨hurl, isAllowed_listed standard hurl hallowed⟩

theorem probe_keepsCredentials (stays : net.StaysPut) {url : Url}
    (hr : r ∈ (answersAsOldHost net url).1) : KeepsCredentials url m body r := by
  unfold answersAsOldHost at hr
  split at hr
  · cases hr
  · next probe hprobe =>
    split at hr
    · obtain rfl := stays _ _ rfl r hr
      refine .inr ⟨?_, rfl, rfl⟩
      rw [Url.setScheme_some hprobe]
      rfl
    · cases hr

theorem request_keepsCredentials (stays : net.StaysPut) (client : Pinned Pin)
    (hr : r ∈ (net.exchange client.1 (p.request m body)).sent) :
    KeepsCredentials p.url m body r := by
  obtain rfl := stays _ _ client.2 r hr
  exact .inl ⟨rfl, rfl, rfl⟩

theorem failed_keepsCredentials (stays : net.StaysPut) {x : Exchange Pin} {failure : SendFailure}
    (hx : ∀ r ∈ x.sent, KeepsCredentials p.url m body r)
    (hr : r ∈ (failed net cache p x failure).sent) : KeepsCredentials p.url m body r := by
  unfold failed at hr
  split at hr
  · exact hx r hr
  · cases failure with
    | timeout => exact hx r hr
    | other =>
      rcases List.mem_append.mp hr with hr | hr
      · exact hx r hr
      · exact probe_keepsCredentials stays hr

theorem send_keepsCredentials (stays : net.StaysPut)
    (hr : r ∈ (send t net cache allowed m body).sent) :
    ∃ p, prepare t net allowed m = .ok p ∧ KeepsCredentials p.url m body r := by
  unfold send at hr
  cases hp : prepare t net allowed m with
  | error e => rw [hp] at hr; cases hr
  | ok p =>
    refine ⟨p, rfl, ?_⟩
    rw [hp] at hr
    dsimp only at hr
    cases hc : clientFor net cache p.key with
    | error e => rw [hc] at hr; cases hr
    | ok pair =>
      obtain ⟨client, cache'⟩ := pair
      rw [hc] at hr
      dsimp only at hr
      have hsent : ∀ r ∈ (net.exchange client.1 (p.request m body)).sent,
          KeepsCredentials p.url m body r := fun _ hr => request_keepsCredentials stays client hr
      cases ha : (net.exchange client.1 (p.request m body)).answer with
      | error failure =>
        rw [ha] at hr
        exact failed_keepsCredentials stays hsent hr
      | ok response =>
        rw [ha] at hr
        dsimp only at hr
        split at hr
        · exact hsent r hr
        · exact hsent r hr

/-- The caller's headers and body go over HTTPS to this computer or to an allowed
Host, whatever the cached clients are, and only a bare question may follow them. -/
theorem requests_stay_on_allowed_origins (standard : UrlStandard t) (stays : net.StaysPut)
    (cache : Cache Pin) (allowed : List String) (m : RequestMeta) (body : List UInt8) :
    (∀ s v, httpsUrl t s = .ok v → httpsUrl t (t.serialize v) = .ok v ∧
      ∃ u, t.parse (trim s) = some u ∧ v.host = u.host ∧
        v.portOrKnownDefault = u.portOrKnownDefault) ∧
    ∀ r ∈ (send t net cache allowed m body).sent, ∃ url, httpsUrl t m.url = .ok url ∧
      url.scheme = "https" ∧ OnAllowedOrigin t allowed url ∧ KeepsCredentials url m body r := by
  refine ⟨fun s v hv => ⟨httpsUrl_idem standard hv, (httpsUrl_keeps hv).2⟩, fun r hr => ?_⟩
  obtain ⟨p, hp, hkeeps⟩ := send_keepsCredentials stays hr
  obtain ⟨hurl, hallowed⟩ := prepare_ok standard hp
  exact ⟨p.url, hurl, (httpsUrl_keeps hurl).1, hallowed, hkeeps⟩

end Send

/-! A school's Host that is saved with its old address and cannot be reached. -/

section OldAddress

def savedHost (scheme : String) : Url :=
  { scheme, host := some (.ipv4 0xC0A80114), port := some 7373 }

def knownTexts : List (String × Url) :=
  [("http://192.168.1.20:7373/", savedHost "http"), ("http://192.168.1.20:7373", savedHost "http"),
    ("https://192.168.1.20:7373/", savedHost "https")]

/-- The `url` crate on the texts of one Host. -/
def savedText : UrlText where
  parse s := (knownTexts.find? fun known => known.1 = s).map fun known => known.2
  serialize u := ((knownTexts.find? fun known => known.2 = u).map fun known => known.1).getD ""
  hostText
    | .ipv4 address => ".".intercalate ([0x1000000, 0x10000, 0x100, 1].map fun unit =>
        Nat.repr (address/unit % 0x100))
    | .domain name => name
    | .ipv6 address => "[" ++ Nat.repr address ++ "]"

theorem savedText_parse {P : String → Url → Prop} (h : ∀ known ∈ knownTexts, P known.1 known.2)
    (s : String) (u : Url) (hs : savedText.parse s = some u) : P s u := by
  obtain ⟨known, hfind, rfl⟩ := Option.map_eq_some_iff.mp hs
  obtain rfl : known.1 = s := of_decide_eq_true (List.find?_some hfind :)
  exact h known (List.mem_of_find?_eq_some hfind)

theorem savedText_standard : UrlStandard savedText where
  reparses s u hs := savedText_parse (P := fun _ u => isSpecial u.scheme = true →
    savedText.parse (savedText.serialize u) = some u) (by decide) s u hs
  upgraded s u v hs := by
    refine savedText_parse (P := fun _ u => u.scheme = "http" → upgrade u = .ok v →
      savedText.parse (savedText.serialize v) = some v) ?_ s u hs
    intro known hknown hscheme hup
    have hold : ∀ known ∈ knownTexts, known.2.scheme = "http" → known.2 = savedHost "http" := by
      decide
    rw [hold known hknown hscheme] at hup
    obtain rfl : savedHost "https" = v := Except.ok.inj hup
    decide
  trimmed s u hs := savedText_parse (P := fun _ u => isSpecial u.scheme = true →
    trim (savedText.serialize u) = savedText.serialize u) (by decide) s u hs
  lowerCase s u host hs hspecial hhost := by
    have hsame := savedText_parse (P := fun _ u => u.host = some (.ipv4 0xC0A80114)) (by decide) s u hs
    obtain rfl := Option.some.inj (hsame.symm.trans hhost)
    decide
  hosts s u host s' u' host' hs _ hhost hs' _ hhost' _ := by
    have hsame := savedText_parse (P := fun _ u => u.host = some (.ipv4 0xC0A80114)) (by decide)
    exact Option.some.inj (hhost.symm.trans ((hsame s u hs).trans ((hsame s' u' hs').symm.trans hhost')))

def offlineNet : Surroundings Unit where
  method := some
  pin _ := none
  pinError _ _ := none
  buildError _ := none
  probeBuilds := true
  exchange _ r := ⟨[r], .error .other, false, none⟩
  readJson _ := none

theorem offlineNet_staysPut : offlineNet.StaysPut :=
  fun _ _ _ _ hr => List.mem_singleton.mp hr

def signedIn : RequestMeta :=
  ⟨"http://192.168.1.20:7373", "get", [("Authorization", "Bearer t"), ("Host", "other")], none⟩

theorem offline_requests_stay_on_saved_host :
    (send savedText offlineNet (fun _ => none) ["http://192.168.1.20:7373"] signedIn []).sent =
      [⟨"GET", savedHost "https", [("Authorization", "Bearer t")], [], some 30000⟩,
        ⟨"GET", { savedHost "http" with path := "/api/health" }, [], [], none⟩] ∧
    ∀ r ∈ (send savedText offlineNet (fun _ => none) ["http://192.168.1.20:7373"] signedIn []).sent,
      ∃ url, httpsUrl savedText signedIn.url = .ok url ∧ url.scheme = "https" ∧
        OnAllowedOrigin savedText ["http://192.168.1.20:7373"] url ∧
        KeepsCredentials url signedIn [] r :=
  ⟨by decide, (requests_stay_on_allowed_origins savedText_standard offlineNet_staysPut
    (fun _ => none) ["http://192.168.1.20:7373"] signedIn []).2⟩

end OldAddress

end Cinder.HostClient
