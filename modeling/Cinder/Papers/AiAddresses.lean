import Cinder.HostClient.LocalNetwork
import Cinder.Papers.AiAllowance
import Cinder.Programs.Commands
import Cinder.Streams.DecimalTexts
import Cinder.Streams.WebAddresses
set_option autoImplicit false

/-!
The settings of the AI provider: how the base URL is normalised and saved, and what is read
back. A stored address is normalised again when it is loaded.
-/

namespace Cinder.Papers.Settings
open Cinder.Host Cinder.HostClient Cinder.Papers Cinder.Programs Cinder.Streams

def addressTooLong : HostError := .badRequest "The AI address is too long."

section Normalize
variable (p : UrlParser)

/-- What `normalize_base_url` makes of a parsed address. -/
def checkAddress (url : WebAddress) : Except HostError String :=
  if url.username ≠ [] ∨ url.password.isSome = true ∨ url.fragment.isSome = true then
    .error (.badRequest "The AI address cannot contain credentials or a fragment.")
  else if url.query.isSome = true then
    .error (.badRequest "The AI base URL cannot contain query parameters.")
  else
    let localHttp := url.scheme = "http".toList &&
      url.host.any fun host => isLocalNetworkHost (String.ofList host)
    if url.scheme ≠ "https".toList ∧ localHttp = false then
      .error (.badRequest ("Cloud AI requires HTTPS. HTTP is allowed only for a local or " ++
        "private-network model."))
    else .ok (String.ofList (addressText { url with fragment := none }))

def normalizeBaseUrl (value : Option String) : Except HostError (Option String) :=
  match value.map trim with
  | none => .ok none
  | some raw =>
    if raw = "" then .ok none
    else if 2048 < raw.utf8ByteSize then .error addressTooLong
    else match parse p raw.toList with
      | none => .error (.badRequest "Enter a valid AI base URL.")
      | some url => (checkAddress url).map some

end Normalize

structure StoredAi where
  baseUrl : Option String
  model : String
  apiKey : Option String
  googleKey : Option String
  googleModel : String
  deriving DecidableEq, Repr

structure SaveAiSettings where
  baseUrl : Option String
  model : String
  apiKey : Option String
  googleKey : Option String
  googleModel : Option String
  deriving DecidableEq, Repr

/-- How credentials are sealed: the twelve bytes drawn for each, and the cipher under the key
of this Host. -/
structure Sealing where
  nonce : String → Bytes
  encrypt : Bytes → Bytes → Option Bytes
  nonce_length : ∀ setting, (nonce setting).length = 12

/-- `as_bytes`. -/
def asBytes (s : String) : Bytes := s.toByteArray.data.toList

abbrev SettingsCommand (α : Type) := Command (String → Option String) HostError α

section Store
variable (p : UrlParser) (credentials : Credentials) (sealing : Sealing)

def loadAi (settings : String → Option String) : Except HostError StoredAi := do
  let apiKey ← decryptApiKey credentials (getSetting settings "ai.api_key")
  let googleKey ← decryptApiKey credentials (getSetting settings "ai.google_key")
  .ok
    { baseUrl := (getSetting settings "ai.base_url").bind fun url =>
        ((normalizeBaseUrl p (some url)).toOption).join
      model := (getSetting settings "ai.model").getD ""
      apiKey, googleKey
      googleModel := (getSetting settings "ai.google_model").getD "gemini-2.5-flash" }

def encryptApiKey (setting plaintext : String) : Except HostError String :=
  match sealing.encrypt (sealing.nonce setting) (asBytes plaintext) with
  | none => .error (.other "encrypting AI credential")
  | some encrypted => .ok (String.ofList ("v1".toList ++
      ':' :: (encodeHex (sealing.nonce setting) ++ ':' :: encodeHex encrypted)))

def put (key value : String) : SettingsCommand Unit :=
  Command.modify fun settings => putSetting settings key value

/-- Absent leaves the stored value alone. -/
def putGiven (key : String) : Option String → SettingsCommand Unit
  | none => pure ()
  | some value => put key value

/-- Absent means that the stored key is left alone. -/
def storeKey (setting : String) : Option String → SettingsCommand Unit
  | none => pure ()
  | some key => do
    let encrypted ← Command.ofExcept
      (if key = "" then .ok "" else encryptApiKey sealing setting key)
    put setting encrypted

def checkLengths (req : SaveAiSettings) : Except HostError Unit :=
  let names := trim req.model :: (req.googleModel.map trim).toList
  if names.any (fun name => 200 < charCount name) then
    .error (.badRequest "The model name is too long.")
  else if [req.apiKey, req.googleKey].any (fun key => key.any fun key => 16384 < charCount key) then
    .error (.badRequest "The API key is too long.")
  else .ok ()

def storeAi (req : SaveAiSettings) : SettingsCommand Unit := do
  let baseUrl ← Command.ofExcept (normalizeBaseUrl p req.baseUrl)
  Command.ofExcept (checkLengths req)
  put "ai.base_url" (baseUrl.getD "")
  put "ai.model" (trim req.model)
  putGiven "ai.google_model" (req.googleModel.map trim)
  storeKey sealing "ai.api_key" req.apiKey
  storeKey sealing "ai.google_key" req.googleKey

end Store

section Twice
variable {p : UrlParser} {url : WebAddress} {n : String}

theorem checkAddress_ok (h : checkAddress url = .ok n) :
    url.Bare ∧ (url.scheme = "http".toList ∨ url.scheme = "https".toList) ∧
      n = String.ofList (addressText url) := by
  unfold checkAddress at h
  split at h
  · cases h
  · next hplain =>
    push Not at hplain
    split at h
    · cases h
    · next hquery =>
      have hbare : url.Bare := ⟨hplain.1, by simpa using hplain.2.1, by simpa using hquery,
        by simpa using hplain.2.2⟩
      dsimp only at h
      split at h
      · cases h
      · next hscheme =>
        cases h
        refine ⟨hbare, ?_, ?_⟩
        · by_cases hs : url.scheme = "https".toList
          · exact .inr hs
          · simp only [ne_eq, hs, not_false_eq_true, true_and, Bool.not_eq_false,
              Bool.and_eq_true, decide_eq_true_eq] at hscheme
            exact .inl hscheme.1
        · rw [← hbare.fragment]

theorem checkAddress_path (h : checkAddress url = .ok n) (path : List (List Char)) :
    checkAddress { url with path } =
      .ok (String.ofList (addressText { url with path })) := by
  obtain ⟨hbare, -, -⟩ := checkAddress_ok h
  simp only [checkAddress] at h ⊢
  split at h
  · cases h
  · next hplain =>
    rw [if_neg hplain]
    split at h
    · cases h
    · next hquery =>
      rw [if_neg hquery]
      split at h
      · cases h
      · next hscheme => rw [if_neg hscheme, ← hbare.fragment]

theorem visible_not_whitespace {c : Char} (h : 0x20 < c.toNat ∧ c.toNat ≤ 0x7E) :
    isWhitespace c = false := by
  simp only [isWhitespace, Bool.or_eq_false_iff, Bool.and_eq_false_iff, decide_eq_false_iff_not]
  omega

theorem normalizeBaseUrl_written (hp : HostStandard p) {s : List Char}
    (hparse : parse p s = some url) (h : checkAddress url = .ok n) :
    n ≠ "" ∧ normalizeBaseUrl p (some n) =
      if 2048 < writtenLength url then .error addressTooLong else .ok (some n) := by
  obtain ⟨hbare, hscheme, rfl⟩ := checkAddress_ok h
  have hread := parse_wellRead hp hparse hscheme
  have hne : String.ofList (addressText url) ≠ "" := by
    rw [ne_eq, String.ofList_eq_empty_iff]
    exact addressText_ne_nil hp hread hbare
  have htrim : trim (String.ofList (addressText url)) = String.ofList (addressText url) := by
    rw [← String.toList_inj, toList_trim, String.toList_ofList]
    exact strip_of_forall fun c hc =>
      visible_not_whitespace (addressText_visible hp hread hbare c hc)
  refine ⟨hne, ?_⟩
  simp only [normalizeBaseUrl, Option.map_some, htrim, if_neg hne, String.toList_ofList,
    utf8ByteSize_addressText hp hread hbare, parse_addressText hp hread hbare,
    checkAddress_path h, addressText_again hp hread hbare]
  rfl

/-- The address that is given has at most 2,048 bytes as the URL standard writes it, without
the slashes at its end. -/
def ShortAddress (p : UrlParser) (value : Option String) : Prop :=
  ∀ url ∈ value.bind fun value => parse p (trim value).toList, writtenLength url ≤ 2048

theorem normalizeBaseUrl_ok {value address : Option String}
    (h : normalizeBaseUrl p value = .ok address) :
    (address = none ∧ (value.bind fun value => parse p (trim value).toList) = none) ∨
      ∃ url n, (value.bind fun value => parse p (trim value).toList) = some url ∧
        checkAddress url = .ok n ∧ address = some n := by
  cases value with
  | none =>
    cases h
    exact .inl ⟨rfl, rfl⟩
  | some value =>
    simp only [normalizeBaseUrl, Option.map_some] at h
    by_cases hempty : trim value = ""
    · rw [if_pos hempty] at h
      cases h
      refine .inl ⟨rfl, ?_⟩
      rw [Option.bind_some, hempty]
      rfl
    · rw [if_neg hempty] at h
      split at h
      · cases h
      · cases hparse : parse p (trim value).toList with
        | none =>
          rw [hparse] at h
          cases h
        | some url =>
          rw [hparse] at h
          cases hn : checkAddress url with
          | error e =>
            simp only [hn] at h
            cases h
          | ok n =>
            simp only [hn] at h
            cases h
            refine .inr ⟨url, n, ?_, hn, rfl⟩
            rw [Option.bind_some, hparse]

theorem normalizeBaseUrl_again (hp : HostStandard p) {value address : Option String}
    (h : normalizeBaseUrl p value = .ok address) :
    normalizeBaseUrl p address = .ok address ↔ ShortAddress p value := by
  unfold ShortAddress
  rcases normalizeBaseUrl_ok h with ⟨rfl, hnone⟩ | ⟨url, n, hparse, hn, rfl⟩
  · rw [hnone]
    simp [normalizeBaseUrl]
  · obtain ⟨value, rfl, hurl⟩ := Option.bind_eq_some_iff.mp hparse
    rw [hparse, (normalizeBaseUrl_written hp hurl hn).2]
    simp only [Option.mem_some_iff, forall_eq']
    split
    · next hlong => simp [Nat.not_le.mpr hlong]
    · next hshort => simp [Nat.not_lt.mp hshort]

end Twice

section Stored
variable {p : UrlParser} {credentials : Credentials} {sealing : Sealing}
  {settings settings' : String → Option String}

/-- What the libraries promise: hexadecimal text and text are read as they were written, and
what is sealed under a nonce of twelve bytes is opened with it. -/
structure SealingStandard (credentials : Credentials) (sealing : Sealing) : Prop where
  hex : ∀ bytes, credentials.decodeHex (String.ofList (encodeHex bytes)) = .ok bytes
  cipher : ∀ nonce plaintext encrypted, nonce.length = 12 →
    sealing.encrypt nonce plaintext = some encrypted →
      encrypted ≠ [] ∧ credentials.decrypt nonce encrypted = some plaintext
  text : ∀ s, credentials.utf8 (asBytes s) = .ok s

def unsealed : Credentials where
  decodeHex s := (decodeHex s.toList).elim (.error "Invalid character") .ok
  decrypt _ _ := none
  utf8 bytes := (String.fromUTF8? ⟨bytes.toArray⟩).elim (.error "invalid utf-8 sequence") .ok

def noSealing : Sealing := ⟨fun _ => List.replicate 12 0, fun _ _ => none, fun _ => rfl⟩

theorem unsealed_standard : SealingStandard unsealed noSealing where
  hex bytes := by simp [unsealed, decodeHex_encodeHex]
  cipher _ _ _ _ h := by cases h
  text s := by
    simp [unsealed, asBytes, String.fromUTF8?, s.isValidUTF8]
    rfl

def Opens (credentials : Credentials) (settings : String → Option String) (setting : String) :
    Prop :=
  ∃ key, decryptApiKey credentials (getSetting settings setting) = .ok key

theorem getSetting_put_self (setting value : String) :
    getSetting (putSetting settings setting value) setting =
      (some value).filter fun value => value ≠ "" := by
  rw [getSetting, putSetting, Function.update_self]

theorem getSetting_put_of_ne {setting other : String} (h : other ≠ setting) (value : String) :
    getSetting (putSetting settings setting value) other = getSetting settings other := by
  simp [getSetting, putSetting, Function.update_of_ne h]

theorem except_ok_bind {ε α β : Type} (a : α) (f : α → Except ε β) :
    ((Except.ok a : Except ε α) >>= f) = f a := rfl

theorem wrapped_ok {α : Type} (what : String) (a : α) : wrapped what (.ok a) = .ok a := rfl

theorem decryptApiKey_encryptApiKey (hs : SealingStandard credentials sealing)
    {setting key encrypted : String} (h : encryptApiKey sealing setting key = .ok encrypted) :
    encrypted ≠ "" ∧ decryptApiKey credentials (some encrypted) = .ok (some key) := by
  unfold encryptApiKey at h
  split at h
  · cases h
  · next bytes hbytes =>
    cases h
    have hnonce := sealing.nonce_length setting
    obtain ⟨hne, hopen⟩ := hs.cipher _ _ _ hnonce hbytes
    have hnonceNe : sealing.nonce setting ≠ [] := by
      intro hnil
      rw [hnil] at hnonce
      cases hnonce
    have hparts : ("v1".toList ++ ':' :: (encodeHex (sealing.nonce setting) ++
        ':' :: encodeHex bytes)).splitOn ':' =
          ["v1".toList, encodeHex (sealing.nonce setting), encodeHex bytes] := by
      rw [List.splitOn_append_cons_self_of_not_mem (by decide),
        List.splitOn_append_cons_self_of_not_mem (colon_not_mem_encodeHex _),
        List.splitOn_eq_singleton (colon_not_mem_encodeHex _)]
    have hneText : String.ofList ("v1".toList ++ ':' :: (encodeHex (sealing.nonce setting) ++
        ':' :: encodeHex bytes)) ≠ "" := by
      rw [ne_eq, String.ofList_eq_empty_iff]
      simp
    have hneHex : ¬ (String.ofList (encodeHex (sealing.nonce setting)) = "" ∨
        String.ofList (encodeHex bytes) = "") := by
      simp [String.ofList_eq_empty_iff, encodeHex_eq_nil_iff, hnonceNe, hne]
    have hkey : openApiKey credentials (String.ofList (encodeHex (sealing.nonce setting)))
        (String.ofList (encodeHex bytes)) = .ok key := by
      simp only [openApiKey, hs.hex, wrapped_ok, except_ok_bind, hnonce, ne_eq, not_true_eq_false,
        if_false, hopen, hs.text]
    refine ⟨hneText, ?_⟩
    simp only [decryptApiKey, Option.filter_some, hneText, ne_eq, not_false_eq_true, decide_true,
      if_true, String.toList_ofList, hparts, List.map_cons, List.map_nil, String.ofList_toList,
      if_neg hneHex, hkey]
    rfl

theorem putGiven_ok {setting : String} {value : Option String}
    (h : putGiven setting value settings = (.ok (), settings')) :
    ∀ other, other ≠ setting → getSetting settings' other = getSetting settings other := by
  intro other hother
  cases value with
  | none =>
    cases h
    rfl
  | some value =>
    cases h
    exact getSetting_put_of_ne hother value

theorem Opens.congr (credentials : Credentials) {setting : String} (h : getSetting settings' setting =
    getSetting settings setting) :
    Opens credentials settings' setting ↔ Opens credentials settings setting := by
  rw [Opens, Opens, h]

theorem storeKey_ok (hs : SealingStandard credentials sealing) {setting : String}
    {key : Option String}
    (h : storeKey sealing setting key settings = (.ok (), settings')) :
    (∀ other, other ≠ setting → getSetting settings' other = getSetting settings other) ∧
      (Opens credentials settings' setting ↔
        (key = none → Opens credentials settings setting)) := by
  cases key with
  | none =>
    cases h
    exact ⟨fun _ _ => rfl, by simp⟩
  | some key =>
    obtain ⟨encrypted, t, hrun, hput⟩ := Command.of_bind_ok h
    obtain ⟨hencrypted, rfl⟩ := Command.of_ofExcept_ok hrun
    cases hput
    refine ⟨fun other hother => getSetting_put_of_ne hother _, ?_⟩
    have hopens : Opens credentials (putSetting t setting encrypted) setting := by
      rw [Opens, getSetting_put_self]
      split at hencrypted
      · cases hencrypted
        exact ⟨none, rfl⟩
      · obtain ⟨hne, hkey⟩ := decryptApiKey_encryptApiKey hs hencrypted
        rw [Option.filter_some, if_pos (by simpa using hne)]
        exact ⟨_, hkey⟩
    simp [hopens]

/-- Of the keys of the settings, the ones the request leaves alone can be opened. -/
structure KeptKeysOpen (credentials : Credentials) (req : SaveAiSettings)
    (settings : String → Option String) : Prop where
  api : req.apiKey = none → Opens credentials settings "ai.api_key"
  google : req.googleKey = none → Opens credentials settings "ai.google_key"

theorem storeAi_ok (hs : SealingStandard credentials sealing) {req : SaveAiSettings}
    (h : storeAi p sealing req settings = (.ok (), settings')) :
    ∃ address, normalizeBaseUrl p req.baseUrl = .ok address ∧
      getSetting settings' "ai.base_url" = address.filter (fun n => n ≠ "") ∧
      (Opens credentials settings' "ai.api_key" ∧ Opens credentials settings' "ai.google_key" ↔
        KeptKeysOpen credentials req settings) := by
  obtain ⟨address, t, hrun, h₁⟩ := Command.of_bind_ok h
  obtain ⟨haddress, ht⟩ := Command.of_ofExcept_ok hrun
  subst ht
  obtain ⟨_, t', hlengths, h₂⟩ := Command.of_bind_ok h₁
  obtain ⟨-, ht'⟩ := Command.of_ofExcept_ok hlengths
  subst ht'
  obtain ⟨_, t₁, hurl, h₃⟩ := Command.of_bind_ok h₂
  cases hurl
  obtain ⟨_, t₂, hmodel, h₄⟩ := Command.of_bind_ok h₃
  cases hmodel
  obtain ⟨_, t₃, hgoogle, h₅⟩ := Command.of_bind_ok h₄
  obtain ⟨_, t₄, hapi, hkey⟩ := Command.of_bind_ok h₅
  have hothers := putGiven_ok hgoogle
  obtain ⟨hapiOthers, hapiOpens⟩ := storeKey_ok hs hapi
  obtain ⟨hkeyOthers, hkeyOpens⟩ := storeKey_ok hs hkey
  refine ⟨address, haddress, ?_, ?_⟩
  · rw [hkeyOthers _ (by decide), hapiOthers _ (by decide), hothers _ (by decide),
      getSetting_put_of_ne (by decide), getSetting_put_self]
    cases address with
    | none => rfl
    | some n => rfl
  · have hkept : ∀ setting, setting ≠ "ai.google_model" → setting ≠ "ai.model" →
        setting ≠ "ai.base_url" → getSetting t₃ setting = getSetting t' setting := by
      intro setting hgoogle hmodel hurl
      rw [hothers _ hgoogle, getSetting_put_of_ne hmodel, getSetting_put_of_ne hurl]
    have hapiKept := Opens.congr credentials
      (hkept "ai.api_key" (by decide) (by decide) (by decide))
    have hgoogleKept := Opens.congr credentials
      ((hapiOthers "ai.google_key" (by decide)).trans
        (hkept "ai.google_key" (by decide) (by decide) (by decide)))
    rw [Opens.congr credentials (hkeyOthers "ai.api_key" (by decide)), hapiOpens, hkeyOpens, hapiKept,
      hgoogleKept]
    exact ⟨fun ⟨hapi, hgoogle⟩ => ⟨hapi, hgoogle⟩, fun h => ⟨h.api, h.google⟩⟩

theorem loadAi_iff {url : Option String} :
    (∃ stored, loadAi p credentials settings = .ok stored ∧ stored.baseUrl = url) ↔
      (Opens credentials settings "ai.api_key" ∧ Opens credentials settings "ai.google_key") ∧
        ((getSetting settings "ai.base_url").bind fun url =>
          (normalizeBaseUrl p (some url)).toOption.join) = url := by
  unfold loadAi Opens
  cases hapi : decryptApiKey credentials (getSetting settings "ai.api_key") with
  | error e => simp [bind, Except.bind]
  | ok api =>
    cases hgoogle : decryptApiKey credentials (getSetting settings "ai.google_key") with
    | error e => simp [bind, Except.bind]
    | ok google => simp [bind, Except.bind]

theorem loadAi_google :
    (loadAi p credentials settings).map (fun s => (s.googleKey, s.googleModel)) =
      (Papers.loadAi settings credentials).map fun s => (s.googleKey, s.googleModel) := by
  unfold loadAi Papers.loadAi
  cases decryptApiKey credentials (getSetting settings "ai.api_key") with
  | error e => rfl
  | ok api => cases decryptApiKey credentials (getSetting settings "ai.google_key") <;> rfl

/-- After settings were accepted the address is loaded as it was saved exactly if it is short
as it is written, and the stored keys that were left alone can be opened. An accepted address
is accepted again, unchanged, exactly if it is short. -/
theorem addresses_load_back_iff (hp : HostStandard p) (hs : SealingStandard credentials sealing) :
    (∀ value address, normalizeBaseUrl p value = .ok address →
      (normalizeBaseUrl p address = .ok address ↔ ShortAddress p value)) ∧
      ∀ req settings settings', storeAi p sealing req settings = (.ok (), settings') →
        ∃ address, normalizeBaseUrl p req.baseUrl = .ok address ∧
          ((∃ stored, loadAi p credentials settings' = .ok stored ∧ stored.baseUrl = address) ↔
            ShortAddress p req.baseUrl ∧ KeptKeysOpen credentials req settings) := by
  refine ⟨fun value address => normalizeBaseUrl_again hp, fun req settings settings' h => ?_⟩
  obtain ⟨address, haddress, hurl, hkeys⟩ := storeAi_ok hs h
  refine ⟨address, haddress, ?_⟩
  rw [loadAi_iff, hkeys, hurl, ← normalizeBaseUrl_again hp haddress, and_comm]
  refine and_congr_left fun _ => ?_
  rcases normalizeBaseUrl_ok haddress with ⟨rfl, -⟩ | ⟨url, n, hparse, hn, rfl⟩
  · simp [normalizeBaseUrl]
  · obtain ⟨value, -, hvalue⟩ := Option.bind_eq_some_iff.mp hparse
    obtain ⟨hne, hagain⟩ := normalizeBaseUrl_written hp hvalue hn
    rw [Option.filter_some, if_pos (by simpa using hne), Option.bind_some, hagain]
    split
    · exact ⟨fun h => (by cases h), fun h => (by cases h)⟩
    · exact ⟨fun _ => rfl, fun _ => rfl⟩

theorem storeAi_accepts (p : UrlParser) (sealing : Sealing) (req : SaveAiSettings)
    {address : Option String} (haddress : normalizeBaseUrl p req.baseUrl = .ok address)
    (hlengths : checkLengths req = .ok ()) (hapi : req.apiKey = none)
    (hgoogle : req.googleKey = none) (settings : String → Option String) :
    ∃ settings', storeAi p sealing req settings = (.ok (), settings') := by
  rw [storeAi, Command.bind_ok (Command.ofExcept_ok haddress _),
    Command.bind_ok (Command.ofExcept_ok hlengths _), hapi, hgoogle]
  cases req.googleModel with
  | none => exact ⟨_, rfl⟩
  | some name => exact ⟨_, rfl⟩

theorem addresses_load_back_sample :
    normalizeBaseUrl plainHosts (some "https://ai.example.org/v1") =
      .ok (some "https://ai.example.org/v1") ∧
    ∃ settings' stored,
      storeAi plainHosts noSealing ⟨some " https://ai.example.org/v1/ ", "small", none, none, none⟩
        (fun _ => none) = (.ok (), settings') ∧
      loadAi plainHosts unsealed settings' = .ok stored ∧
      stored.baseUrl = some "https://ai.example.org/v1" := by
  have haddress : normalizeBaseUrl plainHosts (some " https://ai.example.org/v1/ ") =
      .ok (some "https://ai.example.org/v1") := by decide +kernel
  have hshort : ShortAddress plainHosts (some " https://ai.example.org/v1/ ") := by
    intro url hurl
    have hparse : (some " https://ai.example.org/v1/ ").bind (fun value =>
        parse plainHosts (trim value).toList) = some ⟨"https".toList, [], none,
          some "ai.example.org".toList, none, ["v1".toList, []], none, none⟩ := by decide +kernel
    rw [hparse] at hurl
    cases hurl
    decide
  have hnone : decryptApiKey unsealed (getSetting (fun _ => none) "") = .ok none := rfl
  refine ⟨((addresses_load_back_iff plainHosts_standard unsealed_standard).1 _ _ haddress).mpr
    hshort, ?_⟩
  obtain ⟨settings', hrun⟩ := storeAi_accepts plainHosts noSealing
    ⟨some " https://ai.example.org/v1/ ", "small", none, none, none⟩ haddress
    (by decide +kernel) rfl rfl fun _ => none
  obtain ⟨address, hsaved, hiff⟩ :=
    (addresses_load_back_iff plainHosts_standard unsealed_standard).2 _ _ _ hrun
  obtain ⟨stored, hload, hurl⟩ := hiff.mpr ⟨hshort, fun _ => ⟨none, hnone⟩, fun _ => ⟨none, hnone⟩⟩
  rw [haddress] at hsaved
  cases hsaved
  exact ⟨settings', stored, hrun, hload, hurl⟩

/-- An address with a path of 400 letters that are percent-encoded, six characters each. -/
def accentedText : List Char := "https://ai.example.org/".toList ++ List.replicate 400 'é'

def accentedUrl : WebAddress :=
  ⟨"https".toList, [], none, some "ai.example.org".toList, none,
    [(List.replicate 400 "%C3%A9".toList).flatten], none, none⟩

theorem accentedText_read :
    accentedText.length = 423 ∧ accentedText.all (fun c => !isWhitespace c) = true ∧
      parse plainHosts accentedText = some accentedUrl ∧ 2048 < writtenLength accentedUrl := by
  decide +kernel

/-- It is saved, and lost when it is loaded: what was saved has more than 2,048 bytes. -/
theorem accented_address_lost :
    ∃ n settings' stored,
      normalizeBaseUrl plainHosts (some (String.ofList accentedText)) = .ok (some n) ∧
      normalizeBaseUrl plainHosts (some n) = .error addressTooLong ∧
      storeAi plainHosts noSealing ⟨some (String.ofList accentedText), "small", none, none, none⟩
        (fun _ => none) = (.ok (), settings') ∧
      loadAi plainHosts unsealed settings' = .ok stored ∧ stored.baseUrl = none := by
  obtain ⟨hlength, hletters, hparse, hlong⟩ := accentedText_read
  have hvisible : ∀ c ∈ accentedText, isWhitespace c = false := by
    simpa only [List.all_eq_true, Bool.not_eq_true'] using hletters
  have htrim : trim (String.ofList accentedText) = String.ofList accentedText := by
    rw [← String.toList_inj, toList_trim, String.toList_ofList, strip_of_forall hvisible]
  have hne : String.ofList accentedText ≠ "" := by
    rw [ne_eq, String.ofList_eq_empty_iff]
    rintro hnil
    rw [hnil] at hlength
    cases hlength
  have hsize : (String.ofList accentedText).utf8ByteSize ≤ 2048 :=
    (utf8ByteSize_le accentedText).trans (by rw [hlength]; decide)
  have hcheck : checkAddress accentedUrl = .ok (String.ofList (addressText accentedUrl)) := rfl
  have haddress : normalizeBaseUrl plainHosts (some (String.ofList accentedText)) =
      .ok (some (String.ofList (addressText accentedUrl))) := by
    simp only [normalizeBaseUrl, Option.map_some, htrim, if_neg hne, if_neg (Nat.not_lt.mpr hsize),
      String.toList_ofList, hparse, hcheck]
    rfl
  obtain ⟨hsaved, hagain⟩ := normalizeBaseUrl_written plainHosts_standard hparse hcheck
  rw [if_pos hlong] at hagain
  obtain ⟨settings', hrun⟩ := storeAi_accepts plainHosts noSealing
    ⟨some (String.ofList accentedText), "small", none, none, none⟩ haddress (by decide +kernel)
    rfl rfl fun _ => none
  obtain ⟨address, hok, hurl, hkeys⟩ := storeAi_ok unsealed_standard hrun
  have hnone : decryptApiKey unsealed (getSetting (fun _ => none) "") = .ok none := rfl
  have hload : ∃ stored, loadAi plainHosts unsealed settings' = .ok stored ∧
      stored.baseUrl = none := by
    refine loadAi_iff.mpr ⟨hkeys.mpr ⟨fun _ => ⟨none, hnone⟩, fun _ => ⟨none, hnone⟩⟩, ?_⟩
    rw [haddress] at hok
    cases hok
    rw [hurl, Option.filter_some, if_pos (by simpa using hsaved), Option.bind_some, hagain]
    rfl
  obtain ⟨stored, hload, hnil⟩ := hload
  exact ⟨_, settings', stored, haddress, hagain, hrun, hload, hnil⟩

end Stored

end Cinder.Papers.Settings
