import Cinder.Host.HostValues
import Cinder.Programs.StepProgram
set_option autoImplicit false

namespace Cinder.HostClient
open Cinder.Host Cinder.Programs

inductive UrlHost where
  | domain (name : String)
  | ipv4 (address : Nat)
  | ipv6 (address : Nat)
  deriving DecidableEq, Repr

/-- A URL record. A default port is not stored. -/
structure Url where
  scheme : String
  username : String := ""
  password : Option String := none
  host : Option UrlHost
  port : Option Nat := none
  path : String := "/"
  query : Option String := none
  fragment : Option String := none
  deriving DecidableEq, Repr

def defaultPort (scheme : String) : Option Nat :=
  if scheme = "http" || scheme = "ws" then some 80
  else if scheme = "https" || scheme = "wss" then some 443
  else if scheme = "ftp" then some 21
  else none

def isSpecial (scheme : String) : Bool :=
  ["http", "https", "ws", "wss", "ftp", "file"].contains scheme

namespace Url

def portOrKnownDefault (u : Url) : Option Nat := u.port.or (defaultPort u.scheme)

def setPort (u : Url) (port : Option Nat) : Option Url :=
  if u.host.isNone || u.host = some (.domain "") || u.scheme = "file" then none
  else some { u with port := if port = defaultPort u.scheme then none else port }

def setScheme (u : Url) (scheme : String) : Option Url :=
  if isSpecial scheme != isSpecial u.scheme || (isSpecial scheme && u.host.isNone) ||
    (scheme = "file" && u.host.isSome) then none
  else some { u with
    scheme
    port := if u.port = defaultPort scheme then none else u.port }

end Url

/-- What the `url` crate makes of texts and writes of records. -/
structure UrlText where
  parse : String → Option Url
  serialize : Url → String
  hostText : UrlHost → String

inductive HostRequestError where
  | identityChanged | hostOutdated | timeout | unreachable
  | invalid (message : String)
  deriving DecidableEq, Repr

def notAnAddress : HostRequestError := .invalid "That is not a valid Host address."

def unsupportedAddress : HostRequestError := .invalid "Unsupported Host address."

def orElse {α : Type} (o : Option α) (e : HostRequestError) : Except HostRequestError α :=
  o.elim (.error e) .ok

theorem orElse_ok {α : Type} {o : Option α} {e : HostRequestError} {a : α}
    (h : orElse o e = .ok a) : o = some a := by
  cases o with
  | none => cases h
  | some b => rw [Except.ok.inj h]

def refuseIf (bad : Bool) (e : HostRequestError) : Except HostRequestError Unit :=
  if bad then .error e else .ok ()

theorem refuseIf_ok {bad : Bool} {e : HostRequestError} {v : Unit} (h : refuseIf bad e = .ok v) :
    bad = false := by
  cases bad with
  | true => cases h
  | false => rfl

section Text
variable (t : UrlText)

/-- The origin (`host:port`) a pin is stored under. -/
def origin (u : Url) : Option String := do
  let host ← u.host
  let port ← u.portOrKnownDefault
  return lower (t.hostText host) ++ ":" ++ Nat.repr port

/-- The same address over HTTPS: an implicit port 80 stays 80. -/
def upgrade (u : Url) : Except HostRequestError Url := do
  let secure ← orElse (u.setScheme "https") unsupportedAddress
  orElse (secure.setPort u.portOrKnownDefault) unsupportedAddress

def overHttps (u : Url) : Except HostRequestError Url :=
  if u.scheme = "https" then .ok u
  else if u.scheme = "http" then upgrade u
  else .error (.invalid "The Host address must start with http:// or https://.")

/-- Parses a Host address and always returns it as HTTPS on the same port. -/
def httpsUrl (raw : String) : Except HostRequestError Url := do
  let u ← orElse (t.parse (trim raw)) notAnAddress
  refuseIf (u.username != "" || u.password.isSome || u.fragment.isSome)
    (.invalid "The Host address cannot contain credentials.")
  let u ← overHttps u
  refuseIf u.host.isNone (.invalid "The Host address has no host.")
  return u

def isLoopback (u : Url) : Bool :=
  match u.host with
  | some (.domain name) => lower name = "localhost"
  | some (.ipv4 address) => address/0x1000000 = 127
  | some (.ipv6 address) => address = 1
  | none => false

def isAllowed (u : Url) (allowed : List String) : Bool :=
  isLoopback u || match origin t u with
    | none => false
    | some target => allowed.any fun candidate =>
      (httpsUrl t candidate).toOption.bind (origin t) = some target

/-- What the clients rely on: a parsed record is written as a text that parses to
it again, also after the upgrade; texts have no blanks around them; hosts are
written in lower case, and different hosts differently. -/
structure UrlStandard : Prop where
  reparses : ∀ s u, t.parse s = some u → isSpecial u.scheme = true →
    t.parse (t.serialize u) = some u
  upgraded : ∀ s u v, t.parse s = some u → u.scheme = "http" → upgrade u = .ok v →
    t.parse (t.serialize v) = some v
  trimmed : ∀ s u, t.parse s = some u → isSpecial u.scheme = true →
    trim (t.serialize u) = t.serialize u
  lowerCase : ∀ s u h, t.parse s = some u → isSpecial u.scheme = true → u.host = some h →
    lower (t.hostText h) = t.hostText h
  hosts : ∀ s u h s' u' h', t.parse s = some u → isSpecial u.scheme = true → u.host = some h →
    t.parse s' = some u' → isSpecial u'.scheme = true → u'.host = some h' →
    t.hostText h = t.hostText h' → h = h'

end Text

section Upgrade
variable {t : UrlText} {s : String} {u v : Url}

theorem Url.setScheme_some {scheme : String} (h : u.setScheme scheme = some v) :
    v = { u with scheme, port := if u.port = defaultPort scheme then none else u.port } := by
  unfold Url.setScheme at h
  split at h
  · cases h
  · exact (Option.some.inj h).symm

theorem Url.setPort_some {port : Option Nat} (h : u.setPort port = some v) :
    v = { u with port := if port = defaultPort u.scheme then none else port } := by
  unfold Url.setPort at h
  split at h
  · cases h
  · exact (Option.some.inj h).symm

theorem upgrade_ok (h : upgrade u = .ok v) :
    v.scheme = "https" ∧ v.host = u.host ∧ v.username = u.username ∧ v.password = u.password ∧
      v.fragment = u.fragment ∧
      (u.portOrKnownDefault ≠ none → v.portOrKnownDefault = u.portOrKnownDefault) := by
  obtain ⟨secure, hsecure, hport⟩ := bind_eq_ok.mp h
  have hs := Url.setScheme_some (orElse_ok hsecure)
  have hv := Url.setPort_some (orElse_ok hport)
  subst hs
  subst hv
  refine ⟨rfl, rfl, rfl, rfl, rfl, fun hsome => ?_⟩
  unfold Url.portOrKnownDefault at hsome ⊢
  dsimp only
  split
  · next heq => rw [Option.none_or, heq]
  · rw [Option.or_of_isSome (Option.isSome_iff_ne_none.mpr hsome)]

theorem overHttps_ok (h : overHttps u = .ok v) :
    (u.scheme = "https" ∧ v = u) ∨ (u.scheme = "http" ∧ upgrade u = .ok v) := by
  unfold overHttps at h
  split at h
  · next hs => exact .inl ⟨hs, (Except.ok.inj h).symm⟩
  · split at h
    · next hs => exact .inr ⟨hs, h⟩
    · cases h

theorem httpsUrl_ok (h : httpsUrl t s = .ok v) :
    ∃ u, t.parse (trim s) = some u ∧ overHttps u = .ok v ∧ v.host.isSome ∧
      u.username = "" ∧ u.password = none ∧ u.fragment = none := by
  obtain ⟨u, hu, h⟩ := bind_eq_ok.mp h
  obtain ⟨_, hbare, h⟩ := bind_eq_ok.mp h
  obtain ⟨v', hv, h⟩ := bind_eq_ok.mp h
  obtain ⟨_, hhost, h⟩ := bind_eq_ok.mp h
  obtain rfl : v' = v := Except.ok.inj h
  have hbare := refuseIf_ok hbare
  simp only [Bool.or_eq_false_iff, bne_eq_false_iff_eq, Option.isSome_eq_false_iff,
    Option.isNone_iff_eq_none] at hbare
  refine ⟨u, orElse_ok hu, hv, ?_, hbare.1.1, hbare.1.2, hbare.2⟩
  rw [← Option.not_isNone, refuseIf_ok hhost]
  rfl

theorem portOrKnownDefault_web (hs : u.scheme = "https" ∨ u.scheme = "http") :
    u.portOrKnownDefault ≠ none := by
  unfold Url.portOrKnownDefault
  rcases hs with hs | hs <;> rw [hs] <;> cases u.port <;> simp [defaultPort]

theorem httpsUrl_keeps (h : httpsUrl t s = .ok v) :
    v.scheme = "https" ∧ ∃ u, t.parse (trim s) = some u ∧ v.host = u.host ∧
      v.portOrKnownDefault = u.portOrKnownDefault := by
  obtain ⟨u, hu, hover, -⟩ := httpsUrl_ok h
  rcases overHttps_ok hover with ⟨hs, rfl⟩ | ⟨hs, hup⟩
  · exact ⟨hs, v, hu, rfl, rfl⟩
  · obtain ⟨hscheme, hhost, -, -, -, hport⟩ := upgrade_ok hup
    exact ⟨hscheme, u, hu, hhost, hport (portOrKnownDefault_web (.inr hs))⟩

theorem special_https : isSpecial "https" = true := by decide

theorem parse_httpsUrl (standard : UrlStandard t) (h : httpsUrl t s = .ok v) :
    t.parse (t.serialize v) = some v := by
  obtain ⟨u, hu, hover, -⟩ := httpsUrl_ok h
  rcases overHttps_ok hover with ⟨hs, rfl⟩ | ⟨hs, hup⟩
  · exact standard.reparses _ _ hu (by rw [hs]; rfl)
  · exact standard.upgraded _ _ _ hu hs hup

theorem httpsUrl_idem (standard : UrlStandard t) (h : httpsUrl t s = .ok v) :
    httpsUrl t (t.serialize v) = .ok v := by
  have hparse := parse_httpsUrl standard h
  have hscheme := (httpsUrl_keeps h).1
  obtain ⟨u, -, hover, hhost, huser, hpassword, hfragment⟩ := httpsUrl_ok h
  have hbare : v.username = "" ∧ v.password = none ∧ v.fragment = none := by
    rcases overHttps_ok hover with ⟨-, rfl⟩ | ⟨-, hup⟩
    · exact ⟨huser, hpassword, hfragment⟩
    · obtain ⟨-, -, husername, hpass, hfrag, -⟩ := upgrade_ok hup
      exact ⟨husername.trans huser, hpass.trans hpassword, hfrag.trans hfragment⟩
  have htrim := standard.trimmed _ _ hparse (by rw [hscheme]; rfl)
  refine bind_eq_ok.mpr ⟨v, by rw [htrim, hparse]; rfl, ?_⟩
  refine bind_eq_ok.mpr ⟨(), by rw [hbare.1, hbare.2.1, hbare.2.2]; rfl, ?_⟩
  refine bind_eq_ok.mpr ⟨v, by rw [overHttps, if_pos hscheme], ?_⟩
  refine bind_eq_ok.mpr ⟨(), ?_, rfl⟩
  rw [← Option.not_isSome, hhost]
  rfl

end Upgrade

section Origin
variable {t : UrlText} {s s' : String} {u v : Url}

theorem eq_of_append_separator {α : Type} {c : α} {xs ys ds es : List α} (hd : c ∉ ds) (he : c ∉ es)
    (h : xs ++ c :: ds = ys ++ c :: es) : xs = ys ∧ ds = es := by
  have absurd_mem : ∀ {as bs ds : List α}, c ∉ ds → as ++ c :: bs = ds → False :=
    fun hds heq => hds (heq ▸ List.mem_append_right _ List.mem_cons_self)
  rcases List.append_eq_append_iff.mp h with ⟨as, hys, hrest⟩ | ⟨as, hxs, hrest⟩
  · cases as with
    | nil => exact ⟨(hys.trans (List.append_nil _)).symm, (List.cons.inj hrest).2⟩
    | cons a as => exact (absurd_mem hd (List.cons.inj hrest).2.symm).elim
  · cases as with
    | nil => exact ⟨hxs.trans (List.append_nil _), (List.cons.inj hrest).2.symm⟩
    | cons a as => exact (absurd_mem he (List.cons.inj hrest).2.symm).elim

theorem colon_notMem_repr (n : Nat) : ':' ∉ (Nat.repr n).toList := by
  rw [Nat.toList_repr]
  intro hmem
  have := Nat.isDigit_of_mem_toDigits (by decide) (by decide) hmem
  exact absurd this (by decide)

theorem repr_injective {m n : Nat} (h : Nat.repr m = Nat.repr n) : m = n := by
  have hdigits : Nat.toDigits 10 m = Nat.toDigits 10 n := by
    rw [← Nat.toList_repr, ← Nat.toList_repr, h]
  rw [← Nat.ofDigitChars_ten_toDigits (n := m), hdigits, Nat.ofDigitChars_ten_toDigits]

theorem origin_eq_some {o : String} : origin t u = some o ↔
    ∃ host port, u.host = some host ∧ u.portOrKnownDefault = some port ∧
      o = lower (t.hostText host) ++ ":" ++ Nat.repr port := by
  simp only [origin, Option.bind_eq_bind, Option.bind_eq_some_iff, Option.pure_def,
    Option.some.injEq, eq_comm (a := o)]
  constructor
  · rintro ⟨host, hhost, port, hport, ho⟩
    exact ⟨host, port, hhost, hport, ho⟩
  · rintro ⟨host, port, hhost, hport, ho⟩
    exact ⟨host, hhost, port, hport, ho⟩

theorem origin_inj (standard : UrlStandard t) {o : String} (hu : httpsUrl t s = .ok u)
    (hv : httpsUrl t s' = .ok v) (huo : origin t u = some o) (hvo : origin t v = some o) :
    v.host = u.host ∧ v.portOrKnownDefault = u.portOrKnownDefault := by
  obtain ⟨host, port, hhost, hport, ho⟩ := origin_eq_some.mp huo
  obtain ⟨host', port', hhost', hport', ho'⟩ := origin_eq_some.mp hvo
  have hspecial := fun {w : Url} (hw : w.scheme = "https") => (congrArg isSpecial hw).trans special_https
  have hus := hspecial (httpsUrl_keeps hu).1
  have hvs := hspecial (httpsUrl_keeps hv).1
  have hup := parse_httpsUrl standard hu
  have hvp := parse_httpsUrl standard hv
  rw [standard.lowerCase _ _ _ hup hus hhost] at ho
  rw [ho, standard.lowerCase _ _ _ hvp hvs hhost'] at ho'
  have htext := congrArg String.toList ho'
  simp only [String.toList_append, List.append_assoc] at htext
  obtain ⟨hhosts, hports⟩ :=
    eq_of_append_separator (colon_notMem_repr port) (colon_notMem_repr port') htext
  have hsame := standard.hosts _ _ _ _ _ _ hup hus hhost hvp hvs hhost' (String.toList_inj.mp hhosts)
  rw [hhost, hhost', hport, hport', hsame, repr_injective (String.toList_inj.mp hports)]
  exact ⟨rfl, rfl⟩

/-- An allowed address is loopback or has the host and the port of one of the list. -/
theorem isAllowed_listed {allowed : List String} (standard : UrlStandard t)
    (hu : httpsUrl t s = .ok u) (h : isAllowed t u allowed = true) :
    isLoopback u = true ∨ ∃ a ∈ allowed, ∃ v, httpsUrl t a = .ok v ∧ v.host = u.host ∧
      v.portOrKnownDefault = u.portOrKnownDefault := by
  unfold isAllowed at h
  rcases (Bool.or_eq_true _ _).mp h with hloop | hlisted
  · exact .inl hloop
  · cases ho : origin t u with
    | none => rw [ho] at hlisted; cases hlisted
    | some target =>
      rw [ho] at hlisted
      obtain ⟨a, ha, htarget⟩ := List.any_eq_true.mp hlisted
      obtain ⟨v, hv, hvo⟩ := Option.bind_eq_some_iff.mp (of_decide_eq_true htarget)
      cases hav : httpsUrl t a with
      | error e => rw [hav] at hv; cases hv
      | ok v' =>
        rw [hav] at hv
        obtain rfl : v' = v := Option.some.inj hv
        exact .inr ⟨a, ha, v', hav, origin_inj standard hu hav ho hvo⟩

end Origin

end Cinder.HostClient
