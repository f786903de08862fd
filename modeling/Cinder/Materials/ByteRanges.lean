import Cinder.Backups.BackupManifests
import Cinder.Library.LibraryReads
import Cinder.Streams.DecimalTexts
set_option autoImplicit false

namespace Cinder.Materials
open Cinder.Host Cinder.Backups Cinder.Library Cinder.Streams

/-- `parse::<u64>`. -/
def parseU64 (s : List Char) : Option U64 :=
  (readDecimal (if s.head? = some '+' then s.tail else s)).bind fun n =>
    if h : n < 2^64 then some ⟨n, h⟩ else none

def trimmed (s : List Char) : List Char := (trim (String.ofList s)).toList

def saturatingSub (a b : U64) : U64 := ⟨a.1-b.1, Nat.lt_of_le_of_lt (Nat.sub_le a.1 b.1) a.2⟩

def checkedSub (a b : U64) : Option U64 := if b.1 ≤ a.1 then some (saturatingSub a b) else none

theorem one_lt_u64 : 1 < 2^64 := by decide

def one64 : U64 := ⟨1, one_lt_u64⟩

def lastByte (total : U64) : U64 := saturatingSub total one64

def readBounds (total : U64) (start stop : List Char) : Option (U64 × U64) :=
  match start, stop with
  | [], suffix => (parseU64 suffix).map fun len => (saturatingSub total len, lastByte total)
  | start, [] => (parseU64 start).map fun start => (start, lastByte total)
  | start, stop => do
    let start ← parseU64 start
    let stop ← parseU64 stop
    return (start, min stop (lastByte total))

/-- Parses a single `bytes=start-end` range. -/
def parseRange (header : String) (total : U64) : Option (U64 × U64) := do
  let spec ← stripPrefix "bytes=".toList header.toList
  if ',' ∈ spec ∨ total.1 = 0 then none
  else
    let (start, stop) ← splitOnce '-' spec
    let (start, stop) ← readBounds total (trimmed start) (trimmed stop)
    if stop < start ∨ total ≤ start then none else return (start, stop)

/-- Where a download starts and how long it is. Nothing is returned when the
arithmetic leaves the integers. -/
def downloadSpan (range : Option (U64 × U64)) (total : U64) : Option (U64 × U64) :=
  match range with
  | some (start, stop) => do
    let n ← checkedSub stop start
    let length ← checkedAdd n one64
    return (start, length)
  | none => some (⟨0, u64_pos⟩, total)

/-- `as u64`. -/
def castU64 (n : Int) : U64 := ⟨(n % 18446744073709551616).toNat, by omega⟩

structure DownloadReply where
  status : Nat
  contentType : String
  contentLength : U64
  contentDisposition : String
  contentRange : Option String
  body : Bytes
  deriving DecidableEq, Repr

def contentRangeText (start length total : U64) : Option String := do
  let past ← checkedAdd start length
  let stop ← checkedSub past one64
  return "bytes " ++ Nat.repr start.1 ++ "-" ++ Nat.repr stop.1 ++ "/" ++ Nat.repr total.1

/-- What `download` makes of the metadata and the blob that it has found. -/
def sendFile (fileMeta : FileMeta) (content : Bytes) (header : Option String) :
    Option (Except HostError DownloadReply) := do
  let total := castU64 fileMeta.bytes
  let range := header.bind fun v => parseRange v total
  let (start, length) ← downloadSpan range total
  if content.length < start.1 + length.1 then
    return .error (.other "reading blob: early eof")
  else
    let contentRange ← match range with
      | some _ => (contentRangeText start length total).map some
      | none => some none
    return .ok {
      status := if range.isSome then 206 else 200
      contentType := fileMeta.mime
      contentLength := length
      contentDisposition :=
        "inline; filename=\"" ++ String.ofList (fileMeta.origName.toList.filter (· ≠ '"')) ++ "\""
      contentRange
      body := (content.drop start.1).take length.1 }

theorem not_whitespace_of_isDigit {c : Char} (h : c.isDigit = true) : isWhitespace c = false := by
  simp only [Char.isDigit, Bool.and_eq_true, decide_eq_true_eq, UInt32.le_iff_toNat_le] at h
  have hlow : 48 ≤ c.toNat := h.1
  have hhigh : c.toNat ≤ 57 := h.2
  simp [isWhitespace]
  omega

theorem trimmed_decimal {s : List Char} (h : IsDecimal s) : trimmed s = s := by
  have hkeep : ∀ t : List Char, (∀ c ∈ t, c.isDigit = true) → t.dropWhile isWhitespace = t := by
    intro t ht
    cases t with
    | nil => rfl
    | cons c t =>
      exact List.dropWhile_cons_of_neg (by simp [not_whitespace_of_isDigit (ht c (by simp))])
  have hback := hkeep s.reverse fun c hc => h.2 c (List.mem_reverse.mp hc)
  simp [trimmed, trim, hkeep s h.2, hback]

@[simp] theorem trimmed_nil : trimmed [] = [] := rfl

theorem parseU64_decimal {s : List Char} (h : IsDecimal s)
    (hsmall : Nat.ofDigitChars 10 s 0 < 2^64) :
    parseU64 s = some ⟨Nat.ofDigitChars 10 s 0, hsmall⟩ := by
  have hsign : s.head? ≠ some '+' := fun heq => h.not_mem rfl (List.mem_of_mem_head? heq)
  unfold parseU64
  rw [if_neg hsign, readDecimal_eq_some.mpr ⟨h, rfl⟩]
  exact dif_pos hsmall

theorem parseRange_dash {header : String} {a b : List Char} (total : U64)
    (hheader : header.toList = "bytes=".toList ++ (a ++ '-' :: b)) (hdash : '-' ∉ a)
    (hcomma : ',' ∉ a ∧ ',' ∉ b) (htotal : total.1 ≠ 0) :
    parseRange header total = (readBounds total (trimmed a) (trimmed b)).bind fun bounds =>
      if bounds.2 < bounds.1 ∨ total ≤ bounds.1 then none else some bounds := by
  have hone : ¬ (',' ∈ a ++ '-' :: b ∨ total.1 = 0) := by
    simp [hcomma, htotal]
  simp only [parseRange, hheader, stripPrefix_append, Option.bind_eq_bind, Option.bind_some,
    if_neg hone, splitOnce_append hdash]
  rfl

theorem readBounds_le {total start stop : U64} {a b : List Char}
    (h : readBounds total a b = some (start, stop)) : stop ≤ lastByte total := by
  unfold readBounds at h
  split at h
  · obtain ⟨len, -, heq⟩ := Option.map_eq_some_iff.mp h
    rw [← (Prod.mk.inj heq).2]
  · obtain ⟨start', -, heq⟩ := Option.map_eq_some_iff.mp h
    rw [← (Prod.mk.inj heq).2]
  · obtain ⟨start', -, h⟩ := Option.bind_eq_some_iff.mp h
    obtain ⟨stop', -, heq⟩ := Option.bind_eq_some_iff.mp h
    rw [← (Prod.mk.inj (Option.some.inj heq)).2]
    exact min_le_right _ _

theorem parseRange_cases {header : String} {total start stop : U64}
    (h : parseRange header total = some (start, stop)) :
    ∃ a b, header.toList = "bytes=".toList ++ (a ++ '-' :: b) ∧ '-' ∉ a ∧ ',' ∉ a ++ '-' :: b ∧
      readBounds total (trimmed a) (trimmed b) = some (start, stop) ∧
      total.1 ≠ 0 ∧ start.1 ≤ stop.1 ∧ start.1 < total.1 := by
  obtain ⟨spec, hspec, h⟩ := Option.bind_eq_some_iff.mp h
  split at h
  · cases h
  next hone =>
  obtain ⟨⟨a, b⟩, hsplit, h⟩ := Option.bind_eq_some_iff.mp h
  obtain ⟨⟨start', stop'⟩, hbounds, h⟩ := Option.bind_eq_some_iff.mp h
  dsimp only at hbounds h
  split at h
  · cases h
  next hin =>
  cases h
  simp only [not_or, not_lt, not_le] at hone hin
  obtain ⟨hdash, rfl⟩ := splitOnce_eq_some hsplit
  exact ⟨a, b, stripPrefix_eq_some hspec, hdash, hone.1, hbounds, hone.2, hin.1, hin.2⟩

theorem parseRange_inside {header : String} {total start stop : U64}
    (h : parseRange header total = some (start, stop)) :
    start.1 ≤ stop.1 ∧ stop.1 < total.1 := by
  obtain ⟨a, b, -, -, -, hbounds, htotal, hle, -⟩ := parseRange_cases h
  have hlast : stop.1 ≤ total.1 - 1 := readBounds_le hbounds
  exact ⟨hle, by omega⟩

theorem parseRange_eq_none {header : String} {total x y : U64} {a b : List Char}
    (hheader : header.toList = "bytes=".toList ++ (a ++ '-' :: b)) (hdash : '-' ∉ a)
    (hx : parseU64 (trimmed a) = some x) (hy : parseU64 (trimmed b) = some y)
    (hbad : y < x ∨ total ≤ x) : parseRange header total = none := by
  rw [Option.eq_none_iff_forall_not_mem]
  rintro ⟨start, stop⟩ h
  obtain ⟨a', b', hheader', hdash', -, hbounds, -, hle, hlt⟩ := parseRange_cases h
  have hsplit := splitOnce_append hdash b
  rw [List.append_cancel_left (hheader.symm.trans hheader'), splitOnce_append hdash'] at hsplit
  cases hsplit
  unfold readBounds at hbounds
  split at hbounds
  · next heq => rw [heq] at hx; cases hx
  · next heq _ => rw [heq] at hy; cases hy
  rw [hx, hy] at hbounds
  cases hbounds
  have hstop : (min y (lastByte total)).1 ≤ y.1 := min_le_left y (lastByte total)
  have hbad' : y.1 < x.1 ∨ total.1 ≤ x.1 := hbad
  omega

structure DecimalText where
  digits : List Char
  isDecimal : IsDecimal digits
  small : Nat.ofDigitChars 10 digits 0 < 2^64

def DecimalText.value (d : DecimalText) : U64 := ⟨Nat.ofDigitChars 10 d.digits 0, d.small⟩

inductive RangeForm where
  | between (first last : DecimalText)
  | after (first : DecimalText)
  | suffix (n : DecimalText)

namespace RangeForm

def sides : RangeForm → List Char × List Char
  | .between first last => (first.digits, last.digits)
  | .after first => (first.digits, [])
  | .suffix n => ([], n.digits)

def header (form : RangeForm) : String :=
  String.ofList ("bytes=".toList ++ (form.sides.1 ++ '-' :: form.sides.2))

def Requests (total : U64) : RangeForm → Nat → Prop
  | .between first last, i => first.value.1 ≤ i ∧ i ≤ last.value.1
  | .after first, i => first.value.1 ≤ i
  | .suffix n, i => total.1 ≤ i + n.value.1 ∧ i < total.1

def bounds (total : U64) : RangeForm → U64 × U64
  | .between first last => (first.value, min last.value (lastByte total))
  | .after first => (first.value, lastByte total)
  | .suffix n => (saturatingSub total n.value, lastByte total)

theorem readBounds_sides (total : U64) (form : RangeForm) :
    readBounds total (trimmed form.sides.1) (trimmed form.sides.2) = some (form.bounds total) := by
  cases form with
  | between first last =>
    have hfirst := first.isDecimal.1
    have hlast := last.isDecimal.1
    simp only [sides, trimmed_decimal first.isDecimal, trimmed_decimal last.isDecimal]
    unfold readBounds
    split
    · contradiction
    · contradiction
    · rw [parseU64_decimal first.isDecimal first.small, parseU64_decimal last.isDecimal last.small]
      rfl
  | after first =>
    have hfirst := first.isDecimal.1
    simp only [sides, trimmed_decimal first.isDecimal, trimmed_nil]
    unfold readBounds
    split
    · contradiction
    · rw [parseU64_decimal first.isDecimal first.small]
      rfl
    · contradiction
  | suffix n =>
    simp only [sides, trimmed_decimal n.isDecimal, trimmed_nil, readBounds,
      parseU64_decimal n.isDecimal n.small]
    rfl

theorem requests_iff_bounds {total : U64} (htotal : total.1 ≠ 0) (form : RangeForm) (i : Nat) :
    form.Requests total i ∧ i < total.1 ↔
      (form.bounds total).1.1 ≤ i ∧ i ≤ (form.bounds total).2.1 := by
  cases form with
  | between first last =>
    have hmin : (min last.value (lastByte total)).1 = min last.value.1 (total.1 - 1) := by
      rcases le_total last.value (lastByte total) with h | h
      · rw [min_eq_left h, min_eq_left (show last.value.1 ≤ total.1 - 1 from h)]
      · rw [min_eq_right h, min_eq_right (show total.1 - 1 ≤ last.value.1 from h)]
        rfl
    simp only [Requests, bounds, hmin]
    omega
  | after first =>
    simp only [Requests, bounds, lastByte, saturatingSub, one64]
    omega
  | suffix n =>
    simp only [Requests, bounds, lastByte, saturatingSub, one64]
    omega

theorem parseRange_header {total : U64} (htotal : total.1 ≠ 0) (form : RangeForm) :
    parseRange form.header total =
      if (form.bounds total).2 < (form.bounds total).1 ∨ total ≤ (form.bounds total).1 then none
      else some (form.bounds total) := by
  have hsides : '-' ∉ form.sides.1 ∧ ',' ∉ form.sides.1 ∧ ',' ∉ form.sides.2 := by
    cases form with
    | between first last =>
      exact ⟨first.isDecimal.not_mem rfl, first.isDecimal.not_mem rfl, last.isDecimal.not_mem rfl⟩
    | after first =>
      exact ⟨first.isDecimal.not_mem rfl, first.isDecimal.not_mem rfl, List.not_mem_nil⟩
    | suffix n => exact ⟨List.not_mem_nil, List.not_mem_nil, n.isDecimal.not_mem rfl⟩
  have hheader : form.header.toList = "bytes=".toList ++ (form.sides.1 ++ '-' :: form.sides.2) :=
    String.toList_ofList
  rw [parseRange_dash total hheader hsides.1 hsides.2 htotal, readBounds_sides]
  rfl

theorem parseRange_eq_some (form : RangeForm) (total start stop : U64) :
    parseRange form.header total = some (start, stop) ↔
      start.1 ≤ stop.1 ∧
        ∀ i, start.1 ≤ i ∧ i ≤ stop.1 ↔ form.Requests total i ∧ i < total.1 := by
  constructor
  · intro h
    obtain ⟨hle, hlt⟩ := parseRange_inside h
    have htotal : total.1 ≠ 0 := by omega
    rw [parseRange_header htotal] at h
    split at h
    · cases h
    have hbounds := Option.some.inj h
    refine ⟨hle, fun i => ?_⟩
    rw [requests_iff_bounds htotal, hbounds]
  · rintro ⟨hle, hsame⟩
    have hstart := (hsame start.1).mp ⟨Nat.le_refl _, hle⟩
    have htotal : total.1 ≠ 0 := by omega
    simp only [requests_iff_bounds htotal] at hsame hstart
    -- Two nonempty intervals with the same members have the same ends.
    have hstop := (hsame stop.1).mp ⟨hle, Nat.le_refl _⟩
    have hfirst := (hsame (form.bounds total).1.1).mpr ⟨Nat.le_refl _, by omega⟩
    have hlast := (hsame (form.bounds total).2.1).mpr ⟨by omega, Nat.le_refl _⟩
    have heq₁ : (form.bounds total).1 = start := Subtype.ext (by omega)
    have heq₂ : (form.bounds total).2 = stop := Subtype.ext (by omega)
    have hbounds : form.bounds total = (start, stop) := Prod.ext heq₁ heq₂
    have hin := (requests_iff_bounds htotal form start.1).mpr hstart
    rw [parseRange_header htotal, hbounds, if_neg]
    simp only [not_or, not_lt, not_le]
    exact ⟨hle, hin.2⟩

end RangeForm

theorem checkedSub_eq_some {a b : U64} (h : b.1 ≤ a.1) : checkedSub a b = some (saturatingSub a b) :=
  if_pos h

theorem downloadSpan_range {start stop total : U64} (hle : start.1 ≤ stop.1)
    (hlt : stop.1 < total.1) :
    ∃ length : U64, downloadSpan (some (start, stop)) total = some (start, length) ∧
      length.1 = stop.1 - start.1 + 1 := by
  have hsmall := total.2
  have hsum : (⟨stop.1 - start.1 + 1, by omega⟩ : U64).1 = (saturatingSub stop start).1 + one64.1 :=
    rfl
  refine ⟨⟨stop.1 - start.1 + 1, by omega⟩, ?_, rfl⟩
  simp only [downloadSpan, checkedSub_eq_some hle, checkedAdd_eq_some.mpr hsum,
    Option.bind_eq_bind, Option.bind_some]
  rfl

theorem downloadSpan_inside (header : Option String) (total : U64) :
    ∃ start length : U64,
      downloadSpan (header.bind fun v => parseRange v total) total = some (start, length) ∧
        start.1 + length.1 ≤ total.1 ∧
        ((header.bind fun v => parseRange v total).isSome = true → 0 < length.1) := by
  cases hrange : header.bind fun v => parseRange v total with
  | none => exact ⟨⟨0, u64_pos⟩, total, rfl, by simp, by simp⟩
  | some range =>
    obtain ⟨v, -, hv⟩ := Option.bind_eq_some_iff.mp hrange
    obtain ⟨hle, hlt⟩ := parseRange_inside hv
    obtain ⟨length, hspan, hlength⟩ := downloadSpan_range hle hlt
    exact ⟨range.1, length, hspan, by omega, fun _ => by omega⟩

theorem contentRangeText_isSome {start length total : U64} (hin : start.1 + length.1 ≤ total.1)
    (hpos : 0 < length.1) : (contentRangeText start length total).isSome = true := by
  have hsmall := total.2
  have hpast : (⟨start.1 + length.1, by omega⟩ : U64).1 = start.1 + length.1 := rfl
  simp only [contentRangeText, checkedAdd_eq_some.mpr hpast, Option.bind_eq_bind, Option.bind_some]
  rw [checkedSub_eq_some (show one64.1 ≤ start.1 + length.1 by simp [one64]; omega)]
  rfl

theorem sendFile_cases (fileMeta : FileMeta) (content : Bytes) (header : Option String) :
    ∃ answer, sendFile fileMeta content header = some answer ∧
      ∀ reply, answer = .ok reply →
        reply.contentLength.1 ≤ (castU64 fileMeta.bytes).1 ∧
        reply.body.length = reply.contentLength.1 ∧
        ∀ start stop, (header.bind fun v => parseRange v (castU64 fileMeta.bytes)) = some (start, stop) →
          reply.body = (content.drop start.1).take (stop.1 - start.1 + 1) := by
  obtain ⟨start, length, hspan, hin, hpos⟩ := downloadSpan_inside header (castU64 fileMeta.bytes)
  unfold sendFile
  simp only [hspan, Option.bind_eq_bind, Option.bind_some]
  split
  · exact ⟨_, rfl, fun reply h => by cases h⟩
  next hroom =>
  have hbody : ((content.drop start.1).take length.1).length = length.1 := by
    rw [List.length_take, List.length_drop]
    omega
  cases hrange : header.bind fun v => parseRange v (castU64 fileMeta.bytes) with
  | none =>
    refine ⟨_, rfl, fun reply h => ?_⟩
    cases h
    exact ⟨Nat.le_trans (Nat.le_add_left _ _) hin, hbody, fun _ _ h => by cases h⟩
  | some range =>
    obtain ⟨text, htext⟩ :=
      Option.isSome_iff_exists.mp (contentRangeText_isSome hin (hpos (by rw [hrange]; rfl)))
    simp only [htext, Option.map_some, Option.bind_some]
    refine ⟨_, rfl, fun reply h => ?_⟩
    cases h
    refine ⟨Nat.le_trans (Nat.le_add_left _ _) hin, hbody, fun start' stop' heq => ?_⟩
    cases heq
    obtain ⟨v, -, hv⟩ := Option.bind_eq_some_iff.mp hrange
    obtain ⟨hle, hlt⟩ := parseRange_inside hv
    obtain ⟨length', hspan', hlength⟩ := downloadSpan_range hle hlt
    rw [hrange, hspan'] at hspan
    cases hspan
    rw [← hlength]

/-- What a header yields is inside the file, and for the three forms it is exactly what is
asked for. Several ranges, reversed ones and ones outside the file yield nothing, and the
arithmetic of the download stays below the size of the file. -/
theorem byte_ranges_are_exact (header : String) (total : U64) :
    (∀ start stop, parseRange header total = some (start, stop) →
      start.1 ≤ stop.1 ∧ stop.1 < total.1) ∧
    (∀ form : RangeForm, form.header = header →
      (∀ start stop, parseRange header total = some (start, stop) ↔
        start.1 ≤ stop.1 ∧
          ∀ i, start.1 ≤ i ∧ i ≤ stop.1 ↔ form.Requests total i ∧ i < total.1) ∧
      ((∀ i, form.Requests total i → total.1 ≤ i) → parseRange header total = none)) ∧
    (∀ spec, header.toList = "bytes=".toList ++ spec → ',' ∈ spec →
      parseRange header total = none) ∧
    (∀ a b x y, header.toList = "bytes=".toList ++ (a ++ '-' :: b) → '-' ∉ a →
      parseU64 (trimmed a) = some x → parseU64 (trimmed b) = some y → y < x ∨ total ≤ x →
      parseRange header total = none) ∧
    (∀ start stop, parseRange header total = some (start, stop) →
      ∃ length : U64, downloadSpan (some (start, stop)) total = some (start, length) ∧
        length.1 = stop.1 - start.1 + 1 ∧ length.1 ≤ total.1) ∧
    (∀ fileMeta content, castU64 fileMeta.bytes = total →
      ∃ answer, sendFile fileMeta content (some header) = some answer ∧
        ∀ reply, answer = .ok reply →
          reply.contentLength.1 ≤ total.1 ∧ reply.body.length = reply.contentLength.1 ∧
          ∀ start stop, parseRange header total = some (start, stop) →
            reply.body = (content.drop start.1).take (stop.1 - start.1 + 1)) := by
  refine ⟨fun start stop h => parseRange_inside h, ?_, ?_, ?_, ?_, ?_⟩
  · rintro form rfl
    refine ⟨form.parseRange_eq_some total, fun hout => ?_⟩
    rw [Option.eq_none_iff_forall_not_mem]
    rintro ⟨start, stop⟩ h
    obtain ⟨hle, hsame⟩ := (form.parseRange_eq_some total start stop).mp h
    obtain ⟨hreq, hlt⟩ := (hsame start.1).mp ⟨Nat.le_refl _, hle⟩
    exact absurd (hout start.1 hreq) (Nat.not_le_of_lt hlt)
  · intro spec hspec hcomma
    rw [Option.eq_none_iff_forall_not_mem]
    rintro ⟨start, stop⟩ h
    obtain ⟨a, b, hheader, -, hone, -⟩ := parseRange_cases h
    rw [List.append_cancel_left (hspec.symm.trans hheader)] at hcomma
    exact hone hcomma
  · intro a b x y hheader hdash hx hy hbad
    exact parseRange_eq_none hheader hdash hx hy hbad
  · intro start stop h
    obtain ⟨hle, hlt⟩ := parseRange_inside h
    obtain ⟨length, hspan, hlength⟩ := downloadSpan_range hle hlt
    exact ⟨length, hspan, hlength, by omega⟩
  · rintro fileMeta content rfl
    exact sendFile_cases fileMeta content (some header)

example : [parseRange "bytes=0-99" (asU64 1000), parseRange "bytes=-100" (asU64 1000),
    parseRange "bytes=900-100" (asU64 1000), parseRange "bytes=0-10,20-30" (asU64 1000)] =
    [some (asU64 0, asU64 99), some (asU64 900, asU64 999), none, none] := by decide

end Cinder.Materials
