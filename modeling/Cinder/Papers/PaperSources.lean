import Cinder.HostClient.HostAddresses
import Cinder.HostClient.LocalNetwork
import Cinder.Programs.Commands
set_option autoImplicit false

/-!
The download of a paper from an examination board's site: which address is accepted,
which redirects are followed, and what is requested in the course of it.
-/

namespace Cinder.Papers
open Cinder.Host Cinder.HostClient Cinder.Programs

def sourceAllowlist : List String :=
  ["cambridgeinternational.org", "cbseacademic.nic.in", "cbse.gov.in", "cbse.nic.in", "cisce.org"]

def maxSourceBytes : Nat := 25*1024*1024

def siteName (host : String) : List Char :=
  (lower (String.ofList (trimEndDots host.toList))).toList

def hostIsAllowed (host : String) : Bool :=
  sourceAllowlist.any fun allowed =>
    siteName host = allowed.toList || ('.' :: allowed.toList).isSuffixOf (siteName host)

section Text
variable (t : UrlText)

def hostStr (url : Url) : Option String := url.host.map t.hostText

def validateSourceUrl (raw : String) : Except HostError Url :=
  match t.parse (trim raw) with
  | none => .error (.badRequest "That is not a valid paper address.")
  | some url =>
    if url.scheme ≠ "https" then
      .error (.badRequest "Papers can only be downloaded over HTTPS.")
    else if url.username ≠ "" ∨ url.password.isSome = true then
      .error (.badRequest "That paper address cannot contain credentials.")
    else match hostStr t url with
    | none => .error (.badRequest "That paper address has no website.")
    | some host =>
      if isLocalNetworkHost host = true then .error (.badRequest
        "That address points back at this network, not an examination board.")
      else if hostIsAllowed host = false then .error (.badRequest
        ("Cinder only downloads papers from an examination board's own site (" ++
          ", ".intercalate sourceAllowlist ++ ")."))
      else .ok url

inductive RedirectAction where
  | follow | stop
  deriving DecidableEq, Repr

/-- The policy of the client: every hop is checked again. -/
def redirectPolicy (previous : List Url) (url : Url) : RedirectAction :=
  if previous.length ≥ 5 then .stop
  else match hostStr t url with
    | some host => if url.scheme = "https" ∧ hostIsAllowed host = true then .follow else .stop
    | none => .stop

end Text

/-- A server's answer. `location` is where a redirect leads; the chunks of the body come
until one of them fails. -/
structure PaperAnswer where
  location : Option Url
  success : Bool
  status : String
  contentType : Option String
  chunks : List (Except String Bytes)
  deriving Repr

abbrev FetchCommand (α : Type) := Command (List Url) HostError α

/-- The client, which notes what it requests. It asks the policy about a redirect, with
all that it has requested before; a redirect that is not followed is the answer. -/
def send (policy : List Url → Url → RedirectAction) (url : Url) :
    List (Except String PaperAnswer) → FetchCommand PaperAnswer
  | [] => do
    Command.modify fun requested => requested ++ [url]
    Command.fail (.badRequest "That paper could not be downloaded: no answer")
  | answer :: answers => do
    Command.modify fun requested => requested ++ [url]
    let answer ← Command.ofExcept (answer.mapError fun e =>
      HostError.badRequest ("That paper could not be downloaded: " ++ e))
    let previous ← Command.get
    match answer.location with
    | none => pure answer
    | some next => match policy previous next with
      | .follow => send policy next answers
      | .stop => pure answer

def readChunks : Bytes → List (Except String Bytes) → Except HostError Bytes
  | bytes, [] => .ok bytes
  | _, .error e :: _ => .error (.badRequest ("The download was interrupted: " ++ e))
  | bytes, .ok chunk :: chunks =>
    if bytes.length + chunk.length > maxSourceBytes then
      .error (.badRequest ("That paper is larger than the " ++
        Nat.repr (maxSourceBytes/1048576) ++ " MB limit."))
    else readChunks (bytes ++ chunk) chunks

def receivePaper (answer : PaperAnswer) : Except HostError Bytes :=
  if answer.success = false then
    .error (.badRequest ("The board's site returned " ++ answer.status ++ "."))
  else if "application/pdf".toList.isPrefixOf
      (lower (answer.contentType.getD "")).toList = false then .error (.badRequest
      "That link is not a PDF. Open it on the board's site and pick the paper itself.")
  else match readChunks [] answer.chunks with
    | .error e => .error e
    | .ok bytes =>
      if "%PDF".toUTF8.toList.isPrefixOf bytes = false then
        .error (.badRequest "That download was not a PDF file.")
      else .ok bytes

def pathSegments (url : Url) : List String :=
  match url.path.toList with
  | '/' :: rest => (rest.splitOn '/').map String.ofList
  | _ => []

/-- The last segment of the path, if it is the name of a PDF. -/
def paperName (url : Url) : String :=
  match ((pathSegments url).filter fun segment => segment ≠ "").getLast? with
  | some segment =>
    if ".pdf".toList.isSuffixOf (lower segment).toList = true then segment else "past-paper.pdf"
  | none => "past-paper.pdf"

/-- `store` keeps the document among the teacher's own materials. -/
def fetchSource {Node : Type} (t : UrlText) (store : String → Bytes → Except HostError Node)
    (role : Role) (raw : String) (answers : List (Except String PaperAnswer)) :
    FetchCommand Node := do
  Command.require (role.isTeacher = true) .forbidden
  let url ← Command.ofExcept (validateSourceUrl t raw)
  let answer ← send (redirectPolicy t) url answers
  let bytes ← Command.ofExcept (receivePaper answer)
  Command.ofExcept (store (paperName url) bytes)

def OnBoardSite (host : String) : Prop :=
  ∃ allowed ∈ sourceAllowlist, siteName host = allowed.toList ∨
    ∃ sub, siteName host = sub ++ '.' :: allowed.toList

theorem hostIsAllowed_iff {host : String} : hostIsAllowed host = true ↔ OnBoardSite host := by
  unfold hostIsAllowed OnBoardSite
  rw [List.any_eq_true]
  refine exists_congr fun allowed => and_congr_right fun _ => ?_
  rw [Bool.or_eq_true, decide_eq_true_iff, List.isSuffixOf_iff_suffix]
  exact or_congr_right (exists_congr fun sub => eq_comm)

example : hostIsAllowed "www.CISCE.org." = true ∧
    hostIsAllowed "cisce.org.attacker.example" = false ∧ hostIsAllowed "notcisce.org" = false := by
  decide

section Requests
variable {t : UrlText}

structure Fetchable (t : UrlText) (url : Url) : Prop where
  secure : url.scheme = "https"
  site : ∃ host, hostStr t url = some host ∧ OnBoardSite host

theorem validateSourceUrl_ok {raw : String} {url : Url} (h : validateSourceUrl t raw = .ok url) :
    t.parse (trim raw) = some url ∧ Fetchable t url ∧ url.username = "" ∧ url.password = none := by
  unfold validateSourceUrl at h
  split at h
  · cases h
  next parsed hparse =>
  split at h
  · cases h
  next hsecure =>
  split at h
  · cases h
  next hplain =>
  split at h
  · cases h
  next host hhost =>
  split at h
  · cases h
  split at h
  · cases h
  next hallowed =>
  cases h
  obtain ⟨hname, hpassword⟩ := not_or.mp hplain
  have hsite : OnBoardSite host := hostIsAllowed_iff.mp (by simpa using hallowed)
  have hplainly : url.password = none := by simpa using hpassword
  exact ⟨hparse, ⟨not_not.mp hsecure, host, hhost, hsite⟩, not_not.mp hname, hplainly⟩

theorem redirectPolicy_follow {previous : List Url} {url : Url}
    (h : redirectPolicy t previous url = .follow) : previous.length < 5 ∧ Fetchable t url := by
  unfold redirectPolicy at h
  split at h
  · cases h
  next hfew =>
  split at h
  · next host hhost =>
    split at h
    · next hboth => exact ⟨not_le.mp hfew, hboth.1, host, hhost, hostIsAllowed_iff.mp hboth.2⟩
    · cases h
  · cases h

section Answers
variable {policy : List Url → Url → RedirectAction} {url next : Url} {requested : List Url}
  {answer : PaperAnswer} {answers : List (Except String PaperAnswer)}

theorem send_answer (h : answer.location = none) :
    send policy url (.ok answer :: answers) requested = (.ok answer, requested ++ [url]) := by
  obtain ⟨location, success, status, contentType, chunks⟩ := answer
  cases h
  rfl

theorem send_stop (h : answer.location = some next)
    (hstop : policy (requested ++ [url]) next = .stop) :
    send policy url (.ok answer :: answers) requested = (.ok answer, requested ++ [url]) := by
  obtain ⟨location, success, status, contentType, chunks⟩ := answer
  cases h
  simp [send, Command.bind_run, Command.ofExcept, Except.mapError, hstop]

theorem send_follow (h : answer.location = some next)
    (hfollow : policy (requested ++ [url]) next = .follow) :
    send policy url (.ok answer :: answers) requested =
      send policy next answers (requested ++ [url]) := by
  obtain ⟨location, success, status, contentType, chunks⟩ := answer
  cases h
  simp [send, Command.bind_run, Command.ofExcept, Except.mapError, hfollow]

end Answers

/-- Whatever the servers answer, the first request is the address, all that follow are ones
that the policy has seen, and there are no more than five. -/
theorem send_requests (answers : List (Except String PaperAnswer)) {url : Url}
    {requested : List Url} (hfew : requested.length < 5) :
    ∃ more, (send (redirectPolicy t) url answers requested).2 = requested ++ url :: more ∧
      (∀ u ∈ more, Fetchable t u) ∧ (requested ++ url :: more).length ≤ 5 := by
  have honly : (requested ++ [url]).length ≤ 5 := by
    rw [List.length_append, List.length_singleton]
    omega
  have hnone : ∀ u ∈ ([] : List Url), Fetchable t u := fun _ h => absurd h List.not_mem_nil
  induction answers generalizing url requested with
  | nil => exact ⟨[], rfl, hnone, honly⟩
  | cons answer answers ih =>
    cases answer with
    | error e => exact ⟨[], rfl, hnone, honly⟩
    | ok answer =>
      cases hlocation : answer.location with
      | none => exact ⟨[], by rw [send_answer hlocation], hnone, honly⟩
      | some next =>
        cases hpolicy : redirectPolicy t (requested ++ [url]) next with
        | stop => exact ⟨[], by rw [send_stop hlocation hpolicy], hnone, honly⟩
        | follow =>
          obtain ⟨hless, hnext⟩ := redirectPolicy_follow hpolicy
          have hmore : (requested ++ [url] ++ [next]).length ≤ 5 := by
            rw [List.length_append, List.length_singleton]
            omega
          obtain ⟨more, hrun, hall, hlength⟩ := ih hless hmore
          refine ⟨next :: more, ?_, List.forall_mem_cons.mpr ⟨hnext, hall⟩, ?_⟩
          · rw [send_follow hlocation hpolicy, hrun, List.append_assoc, List.singleton_append]
          · rwa [List.append_assoc, List.singleton_append] at hlength

/-- The requests of one call go to the sites of the boards, over HTTPS. -/
structure BoardsOnly (t : UrlText) (raw : String) (requested : List Url) : Prop where
  fetchable : ∀ u ∈ requested, Fetchable t u
  submitted : ∀ u ∈ requested.head?, t.parse (trim raw) = some u ∧ u.username = "" ∧
    u.password = none
  few : requested.length ≤ 6

end Requests

/-- Papers come only from examination boards. -/
theorem papers_only_from_boards {Node : Type} (t : UrlText)
    (store : String → Bytes → Except HostError Node) (role : Role) (raw : String)
    (answers : List (Except String PaperAnswer)) :
    BoardsOnly t raw (fetchSource t store role raw answers []).2 := by
  have hnone : BoardsOnly t raw [] := by constructor <;> simp
  rcases hfetch : fetchSource t store role raw answers [] with ⟨result, requested⟩
  unfold fetchSource at hfetch
  rcases Command.require_bind_cases hfetch with ⟨-, rfl⟩ | ⟨-, hfetch⟩
  · exact hnone
  rcases Command.ofExcept_bind_cases hfetch with ⟨e, -, -, rfl⟩ | ⟨url, hurl, hfetch⟩
  · exact hnone
  obtain ⟨hparse, hfetchable, hname, hpassword⟩ := validateSourceUrl_ok hurl
  have hempty : ([] : List Url).length < 5 := by decide
  obtain ⟨more, hsend, hall, hlength⟩ := send_requests answers hempty
  -- once the answer is there, nothing more is requested
  have hkeeps : ∀ answer, (Command.ofExcept (receivePaper answer) >>= fun bytes =>
      Command.ofExcept (store (paperName url) bytes) : FetchCommand Node).Keeps id :=
    fun answer => .bind (.ofExcept _) fun _ => .ofExcept _
  have hlast : (send (redirectPolicy t) url answers []).2 = requested := by
    have hafter := Command.Keeps.after hkeeps (send (redirectPolicy t) url answers) []
    exact hafter.symm.trans (congrArg Prod.snd hfetch)
  rw [← hlast, hsend, List.nil_append]
  refine ⟨List.forall_mem_cons.mpr ⟨hfetchable, hall⟩, ?_, ?_⟩
  · intro u hu
    obtain rfl := Option.some.inj hu
    exact ⟨hparse, hname, hpassword⟩
  · rw [List.nil_append] at hlength
    omega

end Cinder.Papers
