import Cinder.Papers.PaperReplies
import Cinder.Papers.PaperSources
import Cinder.Programs.MoveRuns
import Cinder.Storage.SqlNumbers
import Mathlib.Algebra.Order.Ring.Nat
import Mathlib.Algebra.Order.Monoid.Prod
set_option autoImplicit false

namespace Cinder.Papers
open Cinder.Host Cinder.HostClient Cinder.Programs Cinder.Storage

structure AiUsageRow where
  userId : Uuid
  operation : String
  provider : String
  model : String
  inputTokens : Nat
  outputTokens : Nat
  createdAt : String
  deriving DecidableEq, Repr

/-- `accepted` is not stored anywhere: it lists the usage of the replies that were read. -/
structure AiState where
  usage : List AiUsageRow
  accepted : List TokenUsage

abbrev AiCommand (α : Type) := Command AiState HostError α

structure PaperPageImage where
  page : Nat
  jpegBase64 : String
  deriving DecidableEq, Repr

inductive PaperRequest where
  | search (query : String)
  | figures (pages : List PaperPageImage)
  deriving DecidableEq, Repr

/-- One request with what it meets: who sends it and when, the settings, the provider's
answer, and whether the database fails. -/
structure PaperCall where
  role : Role
  userId : Uuid
  now : String
  settings : String → Option String
  loadFails : Option HostError
  answer : Except String ProviderAnswer
  insertFails : Option HostError
  insertedAt : String
  request : PaperRequest

def maxI64 : Nat := 9223372036854775807

section Settings
variable (settings : String → Option String)

def getSetting (key : String) : Option String := (settings key).filter fun value => value ≠ ""

def readDigits (s : List Char) : Option Nat :=
  if s ≠ [] ∧ s.all Char.isDigit = true then
    some (s.foldl (fun n c => n*10 + (c.toNat - 48)) 0)
  else none

/-- `parse::<i64>`. -/
def parseI64 (s : String) : Option Int :=
  match s.toList with
  | '-' :: digits => (readDigits digits).bind fun n => if n ≤ maxI64 + 1 then some (-n) else none
  | '+' :: digits => (readDigits digits).bind fun n => if n ≤ maxI64 then some (n : Int) else none
  | digits => (readDigits digits).bind fun n => if n ≤ maxI64 then some (n : Int) else none

/-- No limit, or one above zero. -/
def monthlyTokenLimit : Option Int :=
  ((getSetting settings "ai.monthly_token_limit").bind parseI64).filter fun limit => limit > 0

/-- Input plus output tokens recorded this calendar month. -/
def tokensThisMonth (now : String) (rows : List AiUsageRow) : Except HostError Int :=
  let month := rows.filter fun row => row.createdAt.toList.take 7 = now.toList.take 7
  (SqlNumber.sumOfSums (month.map fun row => (row.inputTokens, row.outputTokens))).mapError
    HostError.database

def requireAiAllowance (now : String) (rows : List AiUsageRow) : Except HostError Unit :=
  match monthlyTokenLimit settings with
  | none => .ok ()
  | some limit => match tokensThisMonth now rows with
    | .error e => .error e
    | .ok tokens =>
      if tokens ≥ limit then
        .error (.badRequest ("The school has used this month's AI allowance. " ++
          "Whoever runs Cinder Host can raise it under Settings → AI provider."))
      else .ok ()

/-- How credentials are opened: the libraries' hex and text, and the cipher under the key of
this Host. -/
structure Credentials where
  decodeHex : String → Except String Bytes
  decrypt : Bytes → Bytes → Option Bytes
  utf8 : Bytes → Except String String

def wrapped {α : Type} (what : String) (x : Except String α) : Except HostError α :=
  x.mapError fun e => .other (what ++ ": " ++ e)

def openApiKey (credentials : Credentials) (nonceHex ciphertextHex : String) :
    Except HostError String := do
  let nonce ← wrapped "invalid AI credential nonce" (credentials.decodeHex nonceHex)
  let ciphertext ← wrapped "invalid encrypted AI credential" (credentials.decodeHex ciphertextHex)
  if nonce.length ≠ 12 then .error (.other "invalid AI credential nonce length")
  else match credentials.decrypt nonce ciphertext with
    | none => .error (.other "the AI credential could not be decrypted on this machine")
    | some plaintext =>
      wrapped "the AI credential is not valid text" (credentials.utf8 plaintext)

def decryptApiKey (credentials : Credentials) (stored : Option String) :
    Except HostError (Option String) :=
  match stored.filter fun value => value ≠ "" with
  | none => .ok none
  | some value => match (value.toList.splitOn ':').map String.ofList with
    | "v1" :: parts => match parts with
      | [nonceHex, ciphertextHex] =>
        if nonceHex = "" ∨ ciphertextHex = "" then
          .error (.other "invalid encrypted AI credential format")
        else (openApiKey credentials nonceHex ciphertextHex).map some
      | _ => .error (.other "invalid encrypted AI credential format")
    | _ => .error (.other "refusing to load an unencrypted AI credential")

/-- What is read of the settings here: both keys are decrypted. -/
structure StoredAi where
  googleKey : Option String
  googleModel : String

def loadAi (credentials : Credentials) : Except HostError StoredAi := do
  let _ ← decryptApiKey credentials (getSetting settings "ai.api_key")
  let googleKey ← decryptApiKey credentials (getSetting settings "ai.google_key")
  .ok ⟨googleKey, (getSetting settings "ai.google_model").getD "gemini-2.5-flash"⟩

end Settings

/-- The client has a key; the model is named in the record. -/
def googleClient (credentials : Credentials) (call : PaperCall)
    (rows : List AiUsageRow) : Except HostError String :=
  match call.loadFails with
  | some e => .error e
  | none => do
    requireAiAllowance call.settings call.now rows
    let stored ← loadAi call.settings credentials
    if stored.googleKey.isNone then .error .aiUnavailable else .ok stored.googleModel

def badRequest {α : Type} (x : Except String α) : Except HostError α :=
  x.mapError HostError.badRequest

/-- What `generate` returns: the completion of an accepted reply. -/
def readAnswer (readers : JsonReaders) (answer : Except String ProviderAnswer) :
    Except String TextCompletion := do
  let answer ← context "asking Google" answer
  let raw ← answer.raw
  if answer.success = false then
    .error ((readers.errorMessage raw).getD ("Google returned " ++ answer.status))
  else parseGenerationReply readers raw

def generate (readers : JsonReaders) (call : PaperCall) : AiCommand TextCompletion := do
  let completion ← Command.ofExcept (badRequest (readAnswer readers call.answer))
  Command.modify fun s => { s with accepted := s.accepted ++ [completion.usage] }
  pure completion

/-- `i64::try_from(tokens).unwrap_or(i64::MAX)`. -/
def toSql (tokens : Nat) : Nat := if tokens ≤ maxI64 then tokens else maxI64

def recordAiUsage (call : PaperCall) (operation model : String) (usage : TokenUsage) :
    AiCommand Unit := do
  Command.attempt call.insertFails
  Command.modify fun s => { s with usage := s.usage ++ [⟨call.userId, operation, "google", model,
    toSql usage.inputTokens, toSql usage.outputTokens, call.insertedAt⟩] }

/-- The course of both operations: `check` looks at the request, `prompt` at what the client
is asked, and `read` at the text of the reply. -/
def askProvider {α : Type} (readers : JsonReaders) (credentials : Credentials)
    (call : PaperCall) (operation : String) (check prompt : Except HostError Unit)
    (read : String → Except String α) : AiCommand α := do
  Command.require (call.role.isTeacher = true) .forbidden
  Command.ofExcept check
  let s ← Command.get
  let model ← Command.ofExcept (googleClient credentials call s.usage)
  Command.ofExcept prompt
  let completion ← generate readers call
  let found ← Command.ofExcept (badRequest (read completion.content))
  recordAiUsage call operation model completion.usage
  pure found

def refuse (bad : Bool) (message : String) : Except HostError Unit :=
  if bad then .error (.badRequest message) else .ok ()

def checkQuery (query : String) : Except HostError Unit :=
  refuse (charCount query > 400) "That search is too long."

def promptQuery (query : String) : Except HostError Unit :=
  refuse (trim query = "") "describe the paper you are looking for"

def checkPages (pages : List PaperPageImage) : Except HostError Unit := do
  refuse pages.isEmpty "Choose at least one page to look at."
  refuse (pages.length > 8) "Look at up to 8 pages at a time."
  refuse ((pages.map fun page => page.jpegBase64.utf8ByteSize).sum > 12*1024*1024 ||
      pages.any fun page => page.jpegBase64.utf8ByteSize > 4*1024*1024)
    "Those page images are too large. Render them at a lower zoom."

def promptPages (pages : List PaperPageImage) : Except HostError Unit :=
  refuse pages.isEmpty "no pages were supplied"

section Handlers
variable (t : UrlText) (readers : JsonReaders) (credentials : Credentials)
  (call : PaperCall)

/-- Suggestions that could not be downloaded are dropped. -/
def search (query : String) : AiCommand (List PaperCandidate) := do
  let candidates ← askProvider readers credentials call "paper_search" (checkQuery query)
    (promptQuery query) (readCandidates readers)
  pure (candidates.filter fun candidate => (validateSourceUrl t candidate.url).toOption.isSome)

def figures (pages : List PaperPageImage) : AiCommand (List PaperFigure) :=
  askProvider readers credentials call "figure_detection" (checkPages pages) (promptPages pages)
    (readFigures readers)

def afterCall (s : AiState) : AiState :=
  match call.request with
  | .search query => (search t readers credentials call query s).2
  | .figures pages => (figures readers credentials call pages s).2

end Handlers

def ofPapers (row : AiUsageRow) : Bool :=
  row.operation = "paper_search" || row.operation = "figure_detection"

def recorded (s : AiState) : Nat × Nat :=
  ((s.usage.filter ofPapers).map fun row => (row.inputTokens, row.outputTokens)).sum

def reported (s : AiState) : Nat × Nat :=
  (s.accepted.map fun usage => (usage.inputTokens, usage.outputTokens)).sum

/-- The request passes everything that is looked at before the provider is asked. -/
structure Asks (credentials : Credentials) (call : PaperCall) (check prompt : Except HostError Unit)
    (s : AiState) : Prop where
  teacher : call.role.isTeacher = true
  checked : check = .ok ()
  client : ∃ model, googleClient credentials call s.usage = .ok model
  prompted : prompt = .ok ()

/-- What a reply used is in the record: it used nothing, or its text can be read, the insert
succeeds and the figures fit. -/
def Accounted (readable : String → Bool) (call : PaperCall) (completion : TextCompletion) : Prop :=
  completion.usage = ⟨0, 0⟩ ∨ readable completion.content = true ∧ call.insertFails = none ∧
    completion.usage.inputTokens ≤ maxI64 ∧ completion.usage.outputTokens ≤ maxI64

/-- Whatever the provider answers to the request is accounted for. -/
def Counts {α : Type} (readers : JsonReaders) (credentials : Credentials)
    (check prompt : Except HostError Unit) (read : String → Except String α) (call : PaperCall)
    (s : AiState) : Prop :=
  Asks credentials call check prompt s → ∀ completion,
    readAnswer readers call.answer = .ok completion →
      Accounted (fun content => (read content).toOption.isSome) call completion

section Asking
variable {α : Type} {readers : JsonReaders} {credentials : Credentials} {call : PaperCall}
  {operation : String} {check prompt : Except HostError Unit} {read : String → Except String α}
  {s : AiState}

theorem generate_run {completion : TextCompletion}
    (h : readAnswer readers call.answer = .ok completion) : generate readers call s =
      (.ok completion, { s with accepted := s.accepted ++ [completion.usage] }) := by
  rw [generate, h]
  rfl

theorem generate_refused {e : String} (h : readAnswer readers call.answer = .error e) :
    generate readers call s = (.error (.badRequest e), s) := by
  rw [generate, h]
  rfl

theorem recordAiUsage_cases (call : PaperCall) (operation model : String) (usage : TokenUsage)
    (s : AiState) :
    (call.insertFails ≠ none ∧ ∃ e, recordAiUsage call operation model usage s = (.error e, s)) ∨
      call.insertFails = none ∧ recordAiUsage call operation model usage s =
        (.ok (), { s with usage := s.usage ++ [⟨call.userId, operation, "google", model,
          toSql usage.inputTokens, toSql usage.outputTokens, call.insertedAt⟩] }) := by
  unfold recordAiUsage
  cases call.insertFails with
  | some e => exact .inl ⟨by simp, e, rfl⟩
  | none => exact .inr ⟨rfl, rfl⟩

theorem askProvider_stops (operation : String) (read : String → Except String α)
    (h : ¬Asks credentials call check prompt s) :
    (askProvider readers credentials call operation check prompt read s).2 = s := by
  unfold askProvider
  by_cases hteacher : call.role.isTeacher = true
  swap
  · rw [Command.require_bind_error hteacher]
  rw [Command.require_bind_ok hteacher]
  rcases hcheck : check with e | u
  · rw [Command.bind_error (Command.ofExcept_error rfl s)]
  rw [Command.bind_ok (Command.ofExcept_ok rfl s), Command.bind_ok (Command.get_run s)]
  rcases hmodel : googleClient credentials call s.usage with e | model
  · rw [Command.bind_error (Command.ofExcept_error rfl s)]
  rw [Command.bind_ok (Command.ofExcept_ok rfl s)]
  rcases hprompt : prompt with e | u
  · rw [Command.bind_error (Command.ofExcept_error rfl s)]
  · exact absurd ⟨hteacher, hcheck, ⟨model, hmodel⟩, hprompt⟩ h

theorem askProvider_asks (readers : JsonReaders) (operation : String)
    (read : String → Except String α) (h : Asks credentials call check prompt s) : ∃ model,
    askProvider readers credentials call operation check prompt read s =
      (generate readers call >>= fun completion =>
        Command.ofExcept (badRequest (read completion.content)) >>= fun found =>
          recordAiUsage call operation model completion.usage >>= fun _ => pure found) s := by
  obtain ⟨model, hmodel⟩ := h.client
  refine ⟨model, ?_⟩
  rw [askProvider, Command.require_bind_ok h.teacher,
    Command.bind_ok (Command.ofExcept_ok h.checked s), Command.bind_ok (Command.get_run s),
    Command.bind_ok (Command.ofExcept_ok hmodel s),
    Command.bind_ok (Command.ofExcept_ok h.prompted s)]

theorem reported_accepted (s : AiState) (usage : TokenUsage) :
    reported { s with accepted := s.accepted ++ [usage] } =
      reported s + (usage.inputTokens, usage.outputTokens) := by
  rw [reported, List.map_append, List.sum_append, List.map_singleton, List.sum_singleton, reported]

theorem recorded_inserted (s : AiState) {row : AiUsageRow} (h : ofPapers row = true) :
    recorded { s with usage := s.usage ++ [row] } =
      recorded s + (row.inputTokens, row.outputTokens) := by
  rw [recorded, List.filter_append, List.filter_cons_of_pos h, List.filter_nil, List.map_append,
    List.sum_append, List.map_singleton, List.sum_singleton, recorded]

theorem toSql_le (tokens : Nat) : toSql tokens ≤ tokens := by
  unfold toSql
  split
  · exact le_rfl
  · omega

theorem toSql_eq {tokens : Nat} : toSql tokens = tokens ↔ tokens ≤ maxI64 := by
  unfold toSql
  split
  · exact iff_of_true rfl ‹_›
  · exact iff_of_false (by omega) ‹_›

theorem usage_eq_zero {usage : TokenUsage} :
    (0, 0) = (usage.inputTokens, usage.outputTokens) ↔ usage = ⟨0, 0⟩ := by
  obtain ⟨input, output⟩ := usage
  simp [eq_comm]

theorem accounted_lost {readable : String → Bool} {completion : TextCompletion}
    (h : ¬(readable completion.content = true ∧ call.insertFails = none)) :
    Accounted readable call completion ↔ completion.usage = ⟨0, 0⟩ :=
  or_iff_left fun hkept => h ⟨hkept.1, hkept.2.1⟩

theorem accounted_kept {readable : String → Bool} {completion : TextCompletion}
    (hread : readable completion.content = true) (hinsert : call.insertFails = none) :
    Accounted readable call completion ↔
      completion.usage.inputTokens ≤ maxI64 ∧ completion.usage.outputTokens ≤ maxI64 := by
  unfold Accounted
  simp only [hread, hinsert, true_and]
  refine or_iff_right_of_imp fun hzero => ?_
  rw [hzero]
  exact ⟨Nat.zero_le _, Nat.zero_le _⟩

/-- What the two accounts gain by one request: the same, unless a reply was accepted that is
not recorded, or not with its own figures. -/
theorem askProvider_gains (hoperation : ∀ model input output, ofPapers ⟨call.userId, operation,
      "google", model, input, output, call.insertedAt⟩ = true)
    (readers : JsonReaders) (credentials : Credentials) (check prompt : Except HostError Unit)
    (read : String → Except String α) (s : AiState) :
    ∃ a b, recorded (askProvider readers credentials call operation check prompt read s).2 =
        recorded s + a ∧
      reported (askProvider readers credentials call operation check prompt read s).2 =
        reported s + b ∧ a ≤ b ∧
      (a = b ↔ Counts readers credentials check prompt read call s) := by
  by_cases hasks : Asks credentials call check prompt s
  swap
  · rw [askProvider_stops operation read hasks]
    refine ⟨0, 0, (add_zero _).symm, (add_zero _).symm, le_rfl, ?_⟩
    exact iff_of_true rfl fun h => absurd h hasks
  obtain ⟨model, hrun⟩ := askProvider_asks readers operation read hasks
  rw [hrun]
  rcases hanswer : readAnswer readers call.answer with e | completion
  · rw [Command.bind_error (generate_refused hanswer)]
    refine ⟨0, 0, (add_zero _).symm, (add_zero _).symm, le_rfl, ?_⟩
    refine iff_of_true rfl fun _ completion h => ?_
    rw [hanswer] at h
    cases h
  rw [Command.bind_ok (generate_run hanswer)]
  have honly : Counts readers credentials check prompt read call s ↔
      Accounted (fun content => (read content).toOption.isSome) call completion := by
    constructor
    · exact fun h => h hasks completion hanswer
    · intro h _ c hc
      rwa [← Except.ok.inj (hanswer.symm.trans hc)]
  rw [honly]
  rcases hread : read completion.content with e | found
  · have hbad : badRequest (Except.error e : Except String α) = .error (.badRequest e) := rfl
    rw [Command.bind_error (Command.ofExcept_error hbad _)]
    refine ⟨0, _, (add_zero _).symm, reported_accepted s completion.usage, zero_le, ?_⟩
    rw [accounted_lost fun h => (by simp [hread, Except.toOption] at h)]
    exact usage_eq_zero
  have hgood : badRequest (Except.ok found) = .ok found := rfl
  rw [Command.bind_ok (Command.ofExcept_ok hgood _)]
  rcases recordAiUsage_cases call operation model completion.usage
      { s with accepted := s.accepted ++ [completion.usage] } with
    ⟨hfails, e, hinsert⟩ | ⟨hfine, hinsert⟩
  · rw [Command.bind_error hinsert]
    refine ⟨0, _, (add_zero _).symm, reported_accepted s completion.usage, zero_le, ?_⟩
    rw [accounted_lost fun h => hfails h.2]
    exact usage_eq_zero
  · rw [Command.bind_ok hinsert]
    refine ⟨_, _, recorded_inserted { s with accepted := s.accepted ++ [completion.usage] }
      (hoperation model _ _), reported_accepted s completion.usage, ?_, ?_⟩
    · exact Prod.mk_le_mk.mpr ⟨toSql_le _, toSql_le _⟩
    · rw [accounted_kept (by rw [hread]; rfl) hfine, Prod.mk.injEq, toSql_eq, toSql_eq]

end Asking

/-- The condition on a request, in the state that it meets. -/
def Counted (readers : JsonReaders) (credentials : Credentials) (s : AiState) (call : PaperCall) :
    Prop :=
  match call.request with
  | .search query => Counts readers credentials (checkQuery query) (promptQuery query)
      (readCandidates readers) call s
  | .figures pages => Counts readers credentials (checkPages pages) (promptPages pages)
      (readFigures readers) call s

theorem search_state (t : UrlText) (readers : JsonReaders) (credentials : Credentials)
    (call : PaperCall) (query : String) (s : AiState) :
    (search t readers credentials call query s).2 = (askProvider readers credentials call
      "paper_search" (checkQuery query) (promptQuery query) (readCandidates readers) s).2 := by
  have hkeeps : ∀ candidates : List PaperCandidate, (pure (candidates.filter fun candidate =>
      (validateSourceUrl t candidate.url).toOption.isSome) : AiCommand _).Keeps id :=
    fun _ => .pure _
  exact Command.Keeps.after hkeeps _ s

theorem afterCall_gains (t : UrlText) (readers : JsonReaders) (credentials : Credentials)
    (s : AiState) (call : PaperCall) : ∃ a b,
    recorded (afterCall t readers credentials call s) = recorded s + a ∧
      reported (afterCall t readers credentials call s) = reported s + b ∧ a ≤ b ∧
        (a = b ↔ Counted readers credentials s call) := by
  unfold afterCall Counted
  cases call.request with
  | search query =>
    simp only [search_state]
    exact askProvider_gains (fun _ _ _ => rfl) readers credentials _ _ _ s
  | figures pages => exact askProvider_gains (fun _ _ _ => rfl) readers credentials _ _ _ s

def afterCalls (t : UrlText) (readers : JsonReaders) (credentials : Credentials)
    (calls : List PaperCall) (s : AiState) : AiState :=
  calls.foldl (fun s call => afterCall t readers credentials call s) s

/-- The tokens recorded in the course of some requests are those that the replies reported,
if and only if every accepted reply is accounted for. -/
theorem ai_use_recorded_iff (t : UrlText) (readers : JsonReaders) (credentials : Credentials)
    (rows : List AiUsageRow) (calls : List PaperCall) :
    recorded (afterCalls t readers credentials calls ⟨rows, []⟩) =
        recorded ⟨rows, []⟩ + reported (afterCalls t readers credentials calls ⟨rows, []⟩) ↔
      RunMeets (fun s call => afterCall t readers credentials call s) (Counted readers credentials)
        ⟨rows, []⟩ calls := by
  have hgains : ∀ s call, ∃ a b,
      recorded (afterCall t readers credentials call s) = recorded s + a ∧
        recorded ⟨rows, []⟩ + reported (afterCall t readers credentials call s) =
          recorded ⟨rows, []⟩ + reported s + b ∧ a ≤ b ∧
            (a = b ↔ Counted readers credentials s call) := by
    intro s call
    obtain ⟨a, b, ha, hb, hab⟩ := afterCall_gains t readers credentials s call
    exact ⟨a, b, ha, by rw [hb, add_assoc], hab⟩
  have hstart : recorded ⟨rows, []⟩ = recorded ⟨rows, []⟩ + reported ⟨rows, []⟩ := (add_zero _).symm
  have hall := runMeets_iff_accounts (f := recorded)
    (g := fun s => recorded ⟨rows, []⟩ + reported s) hgains hstart.le calls
  exact hall.trans (and_iff_right hstart)

def proseRaw : String :=
  "\x7b\"candidates\":[\x7b\"content\":\x7b\"parts\":[\x7b\"text\":\"None found\"\x7d]\x7d\x7d]," ++
    "\"usageMetadata\":\x7b\"promptTokenCount\":42,\"candidatesTokenCount\":7\x7d\x7d"

def proseReaders : JsonReaders where
  reply raw := if raw = proseRaw then
      .ok ⟨[⟨some ⟨[⟨some "None found"⟩]⟩⟩], ⟨42, 7⟩⟩
    else .error "expected value at line 1 column 1"
  candidates text := if text = "[]" then .ok [] else .error "expected value at line 1 column 1"
  figures text := if text = "[]" then .ok [] else .error "expected value at line 1 column 1"
  errorMessage _ := none

def zeroCredentials : Credentials where
  decodeHex s := .ok (List.replicate (s.toList.length / 2) 0)
  decrypt _ _ := some [107]
  utf8 _ := .ok "k"

def noUrls : UrlText := ⟨fun _ => none, fun _ => "", fun _ => ""⟩

def proseSearch : PaperCall where
  role := .teacher
  userId := 1
  now := "2026-05-01T00:00:00+00:00"
  settings key :=
    if key = "ai.google_key" then some "v1:000000000000000000000000:00" else none
  loadFails := none
  answer := .ok ⟨true, "200 OK", .ok proseRaw⟩
  insertFails := none
  insertedAt := "2026-05-01T00:00:01+00:00"
  request := .search "physics 2023"

set_option maxRecDepth 4000 in
/-- Forty-nine tokens are reported, and none of them is recorded. -/
theorem prose_reply_not_recorded :
    reported (afterCalls noUrls proseReaders zeroCredentials [proseSearch] ⟨[], []⟩) = (42, 7) ∧
    ¬recorded (afterCalls noUrls proseReaders zeroCredentials [proseSearch] ⟨[], []⟩) =
      recorded ⟨[], []⟩ +
        reported (afterCalls noUrls proseReaders zeroCredentials [proseSearch] ⟨[], []⟩) := by
  decide

end Cinder.Papers
