import Cinder.HostClient.SentRequests
import Cinder.Backups.BackupManifests
import Cinder.Streams.LengthPrefix
set_option autoImplicit false

/-!
How the webview and the native side of an app hand messages to each other: a JSON
head, announced by its length, and a raw body. Each side packs in its own language
what the other one unpacks.
-/

namespace Cinder.HostClient
open Cinder.Host Cinder.Streams

/-- `JSON.stringify` and `JSON.parse` with the UTF-8 coders of the webview, and
`serde_json`. A text that cannot be read has no value. -/
structure JsonText where
  stringify : Json → Octets
  parse : Octets → Option Json
  toVec : Json → Octets
  fromSlice : Octets → Option Json

def headersJson : List (String × String) → JsonArray
  | [] => .nil
  | (name, value) :: headers =>
    .cons (.arr (.cons (.str name) (.cons (.str value) .nil))) (headersJson headers)

def readHeaders : JsonArray → Option (List (String × String))
  | .nil => some []
  | .cons (.arr (.cons (.str name) (.cons (.str value) .nil))) xs => do
    let headers ← readHeaders xs
    pure ((name, value) :: headers)
  | .cons _ _ => none

/-- The head that `hostFetch` sends. -/
def RequestMeta.json (m : RequestMeta) : Json :=
  .obj (.cons "headers" (.arr (headersJson m.headers)) (.cons "method" (.str m.method)
    (match m.timeoutMs with
      | none => .cons "url" (.str m.url) .nil
      | some n => .cons "timeoutMs" (.num (.posInt n)) (.cons "url" (.str m.url) .nil))))

def readHeaderField : Option Json → Option (List (String × String))
  | none => some []
  | some (.arr xs) => readHeaders xs
  | some _ => none

def readTimeout (x : Option Json) : Option (Option Nat) :=
  (Backups.readOption Backups.jsonU64 x).map (Option.map (·.1))

/-- What the derived `Deserialize` accepts: an object, of which it ignores other
fields, or the fields in their order. -/
def RequestMeta.read : Json → Option RequestMeta
  | .obj fields => do
    let url ← (fields.get "url").bind Json.asStr
    let method ← (fields.get "method").bind Json.asStr
    let headers ← readHeaderField (fields.get "headers")
    let timeoutMs ← readTimeout (fields.get "timeoutMs")
    pure ⟨url, method, headers, timeoutMs⟩
  | .arr (.cons (.str url) (.cons (.str method) .nil)) => some ⟨url, method, [], none⟩
  | .arr (.cons (.str url) (.cons (.str method) (.cons headers .nil))) => do
    let headers ← readHeaderField (some headers)
    pure ⟨url, method, headers, none⟩
  | .arr (.cons (.str url) (.cons (.str method) (.cons headers (.cons timeoutMs .nil)))) => do
    let headers ← readHeaderField (some headers)
    let timeoutMs ← readTimeout (some timeoutMs)
    pure ⟨url, method, headers, timeoutMs⟩
  | _ => none

/-- `json!({ "status": .., "headers": .. })`. -/
def HostResponse.head (response : HostResponse) : Json :=
  .obj (.cons "headers" (.arr (headersJson response.headers))
    (.cons "status" (.num (.posInt response.status)) .nil))

/-- `raw.get(start..stop)`. -/
def slice (raw : Octets) (start stop : Nat) : Option Octets :=
  if start ≤ stop ∧ stop ≤ raw.length then some ((raw.drop start).take (stop-start)) else none

/-- `Vec::split_off`, which panics behind the end. -/
def splitOff (raw : Octets) (place : Nat) : Option (Octets × Octets) :=
  if place ≤ raw.length then some (raw.take place, raw.drop place) else none

def malformed : HostRequestError := .invalid "The request could not be read."

section Framing
variable (text : JsonText)

/-- `frame` of a request, on the webview's side. -/
def frame (head : Json) (body : Octets) : Octets :=
  let encoded := text.stringify head
  bigEndian encoded.length ++ encoded ++ body

def readHead (raw : Octets) : Except HostRequestError (RequestMeta × Nat) := do
  let headLen ← orElse ((slice raw 0 4).bind readBigEndian) malformed
  let headEnd ← orElse ((Backups.checkedAdd ⟨4, by decide⟩ (Backups.asU64 headLen)).map (·.1))
    malformed
  let head ← orElse (slice raw 4 headEnd) malformed
  let m ← orElse ((text.fromSlice head).bind RequestMeta.read) malformed
  pure (m, headEnd)

/-- `unframe_request`. It has no result where it panics. -/
def unframeRequest (raw : Octets) : Option (Except HostRequestError (RequestMeta × Octets)) :=
  match readHead text raw with
  | .error e => some (.error e)
  | .ok (m, headEnd) => (splitOff raw headEnd).map fun (_, body) => .ok (m, body)

/-- `frame` of a response, on the native side. -/
def frameResponse (response : HostResponse) : Octets :=
  let head := text.toVec response.head
  bigEndian head.length ++ head ++ response.body

/-- What the webview takes the head of a response for, without a check. -/
def asHead : Json → Option (Nat × List (String × String))
  | .obj fields =>
    match fields.get "status", fields.get "headers" with
    | some (.num (.posInt status)), some (.arr xs) => (readHeaders xs).map fun headers =>
      (status, headers)
    | _, _ => none
  | _ => none

/-- `unframe`, on the webview's side. It throws where there is no result. -/
def unframe (raw : Octets) : Option HostResponse := do
  let headLength ← readBigEndian (raw.take 4)
  let head ← text.parse ((raw.drop 4).take headLength)
  let (status, headers) ← asHead head
  pure ⟨status, headers, raw.drop (4+headLength)⟩

end Framing

def IsFrame (text : JsonText) (raw : Octets) : Prop :=
  ∃ head body m, head.length < 2^32 ∧ raw = prefixed head body ∧
    (text.fromSlice head).bind RequestMeta.read = some m

section Heads
variable {text : JsonText}

theorem readHeaders_json (headers : List (String × String)) :
    readHeaders (headersJson headers) = some headers := by
  induction headers with
  | nil => rfl
  | cons header headers ih =>
    rw [headersJson, readHeaders, ih]
    rfl

theorem RequestMeta.read_json (m : RequestMeta) (h : ∀ n ∈ m.timeoutMs, n < 2^64) :
    RequestMeta.read m.json = some m := by
  obtain ⟨url, method, headers, timeoutMs⟩ := m
  cases timeoutMs with
  | none => simp [RequestMeta.read, RequestMeta.json, JsonFields.get, Json.asStr, readHeaderField,
      readHeaders_json, readTimeout, Backups.readOption]
  | some n =>
    have hn : Backups.jsonU64 (.num (.posInt n)) = some ⟨n, h n rfl⟩ := dif_pos (h n rfl)
    simp [RequestMeta.read, RequestMeta.json, JsonFields.get, Json.asStr, readHeaderField,
      readHeaders_json, readTimeout, Backups.readOption, hn]

theorem asHead_head (response : HostResponse) :
    asHead response.head = some (response.status, response.headers) := by
  simp [asHead, HostResponse.head, JsonFields.get, readHeaders_json]

end Heads

section Unframing
variable {text : JsonText} {raw : Octets}

theorem slice_zero_four_bind : (slice raw 0 4).bind readBigEndian = readBigEndian (raw.take 4) := by
  unfold slice
  split
  · rw [List.drop_zero, Option.bind_some]
  · next h =>
    have hlen : (raw.take 4).length < 4 := by
      rw [List.length_take]
      omega
    cases hread : readBigEndian (raw.take 4) with
    | none => rfl
    | some n =>
      rw [(readBigEndian_eq_some hread).2, length_bigEndian] at hlen
      omega

theorem checkedAdd_four {n : Nat} (h : n < 2^32) :
    (Backups.checkedAdd ⟨4, by decide⟩ (Backups.asU64 n)).map (·.1) = some (4+n) := by
  have hn : (Backups.asU64 n).1 = n := Nat.mod_eq_of_lt (by omega)
  have hsum : 4+(Backups.asU64 n).1 < 2^64 := by omega
  unfold Backups.checkedAdd
  rw [dif_pos hsum, Option.map_some]
  exact congrArg (fun k => some (4+k)) hn

theorem readHead_eq_ok {m : RequestMeta} {headEnd : Nat} :
    readHead text raw = .ok (m, headEnd) ↔ ∃ head body, head.length < 2^32 ∧
      raw = prefixed head body ∧ headEnd = 4+head.length ∧
        (text.fromSlice head).bind RequestMeta.read = some m := by
  constructor
  · intro h
    obtain ⟨n, hn, h⟩ := Programs.bind_eq_ok.mp h
    obtain ⟨e, he, h⟩ := Programs.bind_eq_ok.mp h
    obtain ⟨head, hhead, h⟩ := Programs.bind_eq_ok.mp h
    obtain ⟨m', hm, h⟩ := Programs.bind_eq_ok.mp h
    cases h
    have hread := orElse_ok hn
    rw [slice_zero_four_bind] at hread
    have hlt := (readBigEndian_eq_some hread).1
    have hend := (orElse_ok he).symm.trans (checkedAdd_four hlt)
    cases hend
    have hslice := orElse_ok hhead
    unfold slice at hslice
    split at hslice
    case isFalse => cases hslice
    case isTrue hlong =>
      rw [show 4+n-4 = n by omega] at hslice
      cases hslice
      have hlen : ((raw.drop 4).take n).length = n := by
        rw [List.length_take, List.length_drop]
        omega
      refine ⟨(raw.drop 4).take n, raw.drop (4+n), ?_, eq_prefixed hread hlong.2, ?_, orElse_ok hm⟩
      · rwa [hlen]
      · rw [hlen]
  · rintro ⟨head, body, hlt, rfl, rfl, hm⟩
    have hread : (slice (prefixed head body) 0 4).bind readBigEndian = some head.length := by
      rw [slice_zero_four_bind, take_prefixed, readBigEndian_bigEndian hlt]
    have hslice : slice (prefixed head body) 4 (4+head.length) = some head := by
      unfold slice
      rw [if_pos ⟨by omega, by rw [length_prefixed]; omega⟩, show 4+head.length-4 = head.length by omega,
        head_prefixed]
    rw [readHead, hread]
    dsimp only [orElse, Option.elim, bind, Except.bind]
    rw [checkedAdd_four hlt]
    dsimp only [orElse, Option.elim, bind, Except.bind]
    rw [hslice]
    dsimp only [orElse, Option.elim, bind, Except.bind]
    rw [hm]
    rfl

theorem unframeRequest_cases (text : JsonText) (raw : Octets) :
    (∃ head body m, head.length < 2^32 ∧ raw = prefixed head body ∧
      (text.fromSlice head).bind RequestMeta.read = some m ∧
        unframeRequest text raw = some (.ok (m, body))) ∨
    ¬IsFrame text raw ∧ ∃ e, unframeRequest text raw = some (.error e) := by
  unfold unframeRequest
  cases hhead : readHead text raw with
  | error e =>
    refine .inr ⟨?_, e, rfl⟩
    rintro ⟨head, body, m, hlt, hraw, hm⟩
    have hok := readHead_eq_ok.mpr ⟨head, body, hlt, hraw, rfl, hm⟩
    rw [hok] at hhead
    cases hhead
  | ok found =>
    obtain ⟨m, headEnd⟩ := found
    obtain ⟨head, body, hlt, rfl, rfl, hm⟩ := readHead_eq_ok.mp hhead
    refine .inl ⟨head, body, m, hlt, rfl, hm, ?_⟩
    have hsplit : splitOff (prefixed head body) (4+head.length) =
        some ((prefixed head body).take (4+head.length), body) := by
      rw [splitOff, if_pos (by rw [length_prefixed]; omega), body_prefixed]
    dsimp only
    rw [hsplit]
    rfl

theorem unframeRequest_frame {m : RequestMeta} {body : Octets} (hm : ∀ n ∈ m.timeoutMs, n < 2^64)
    (htext : text.fromSlice (text.stringify m.json) = some m.json)
    (hlt : (text.stringify m.json).length < 2^32) :
    unframeRequest text (frame text m.json body) = some (.ok (m, body)) := by
  have hread : (text.fromSlice (text.stringify m.json)).bind RequestMeta.read = some m := by
    rw [htext, Option.bind_some, m.read_json hm]
  have hhead : readHead text (frame text m.json body) =
      .ok (m, 4+(text.stringify m.json).length) :=
    readHead_eq_ok.mpr ⟨_, body, hlt, rfl, rfl, hread⟩
  have hsplit : splitOff (frame text m.json body) (4+(text.stringify m.json).length) =
      some ((frame text m.json body).take (4+(text.stringify m.json).length), body) := by
    rw [splitOff, frame, ← prefixed, if_pos (by rw [length_prefixed]; omega), body_prefixed]
  rw [unframeRequest, hhead]
  dsimp only
  rw [hsplit]
  rfl

theorem unframe_frameResponse {response : HostResponse}
    (htext : text.parse (text.toVec response.head) = some response.head)
    (hlt : (text.toVec response.head).length < 2^32) :
    unframe text (frameResponse text response) = some response := by
  rw [unframe, frameResponse, ← prefixed, take_prefixed, readBigEndian_bigEndian hlt]
  dsimp only [bind, Option.bind]
  rw [head_prefixed, htext]
  dsimp only
  rw [asHead_head, body_prefixed]
  rfl

end Unframing

def announced (raw : Octets) : Option Nat := readBigEndian (raw.take 4)

/-- What one side packs the other one unpacks, and what is no frame is an error
and no panic. A text is assumed to be read as what was written. -/
theorem messages_cross_the_bridge (text : JsonText) :
    (∀ (m : RequestMeta) (body : Octets), (∀ n ∈ m.timeoutMs, n < 2^64) →
      text.fromSlice (text.stringify m.json) = some m.json →
      (text.stringify m.json).length < 2^32 →
      unframeRequest text (frame text m.json body) = some (.ok (m, body))) ∧
    (∀ response : HostResponse, text.parse (text.toVec response.head) = some response.head →
      (text.toVec response.head).length < 2^32 →
      unframe text (frameResponse text response) = some response) ∧
    ∀ raw, (¬IsFrame text raw → ∃ e, unframeRequest text raw = some (.error e)) ∧
      (raw.length < 4 ∨ (∃ n ∈ announced raw, raw.length < 4+n) → ¬IsFrame text raw) := by
  refine ⟨fun m body => unframeRequest_frame, fun response => unframe_frameResponse,
    fun raw => ⟨fun hno => ?_, ?_⟩⟩
  · rcases unframeRequest_cases text raw with ⟨head, body, m, hlt, hraw, hm, -⟩ | ⟨-, herror⟩
    · exact absurd ⟨head, body, m, hlt, hraw, hm⟩ hno
    · exact herror
  · rintro hshort ⟨head, body, m, hlt, rfl, -⟩
    rcases hshort with hshort | ⟨n, hn, hshort⟩
    · rw [length_prefixed] at hshort
      omega
    · have hread : announced (prefixed head body) = some head.length := by
        rw [announced, take_prefixed, readBigEndian_bigEndian hlt]
      cases hread.symm.trans hn
      rw [length_prefixed] at hshort
      omega

section Health

def ascii (s : String) : Octets := s.toList.map fun c => UInt8.ofNat c.toNat

def healthRequest : RequestMeta := ⟨"https://10.0.0.5:7373/api/health", "GET", [], some 12000⟩

def healthResponse : HostResponse :=
  ⟨200, [("content-type", "application/json")], ascii "\x7b\"ok\":true\x7d"⟩

def healthRequestText : Octets := ascii
  "\x7b\"url\":\"https://10.0.0.5:7373/api/health\",\"method\":\"GET\",\"headers\":[],\"timeoutMs\":12000\x7d"

def healthResponseText : Octets :=
  ascii "\x7b\"headers\":[[\"content-type\",\"application/json\"]],\"status\":200\x7d"

def healthText : JsonText where
  stringify x := if x = healthRequest.json then healthRequestText else []
  parse bytes := if bytes = healthResponseText then some healthResponse.head else none
  toVec x := if x = healthResponse.head then healthResponseText else []
  fromSlice bytes := if bytes = healthRequestText then some healthRequest.json else none

theorem messages_cross_the_bridge_health :
    unframeRequest healthText (frame healthText healthRequest.json []) =
      some (.ok (healthRequest, [])) ∧
    unframe healthText (frameResponse healthText healthResponse) = some healthResponse ∧
    ∃ e, unframeRequest healthText [0, 0, 0, 99, 123] = some (.error e) := by
  obtain ⟨hrequest, hresponse, hother⟩ := messages_cross_the_bridge healthText
  refine ⟨hrequest _ _ (by decide) (by decide +kernel) (by decide +kernel),
    hresponse _ (by decide +kernel) (by decide +kernel), (hother _).1 ?_⟩
  exact (hother _).2 (.inr ⟨99, by decide, by decide⟩)

end Health

end Cinder.HostClient
