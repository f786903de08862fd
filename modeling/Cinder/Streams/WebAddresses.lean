import Mathlib.Algebra.GroupWithZero.Nat
import Cinder.Streams.DecimalTexts
import Cinder.Streams.WordRuns
import Cinder.Streams.UrlPaths
set_option autoImplicit false

/-!
Web addresses as the URL standard reads and writes them. The host parser is a parameter,
and so is what is made of schemes other than `http` and `https`.
-/

namespace Cinder.Streams

/-- A URL record. A default port is not stored. -/
structure WebAddress where
  scheme : List Char
  username : List Char
  password : Option (List Char)
  host : Option (List Char)
  port : Option Nat
  path : List (List Char)
  query : Option (List Char)
  fragment : Option (List Char)
  deriving DecidableEq, Repr

/-- `host` gives a host as it is written again. -/
structure UrlParser where
  host : List Char → Option (List Char)
  other : List Char → List Char → Option WebAddress

section Reading

/-- C0 controls and spaces at the ends are left out, and so are tabs and line ends. -/
def cleaned (s : List Char) : List Char :=
  (strip (fun c => c.toNat ≤ 0x20) s).filter fun c => !(['\t', '\n', '\r'].contains c)

def isSchemeChar (c : Char) : Bool := c.isAlphanum || ['+', '-', '.'].contains c

def readScheme (s : List Char) : Option (List Char × List Char) :=
  let scheme := s.takeWhile isSchemeChar
  match s.drop scheme.length with
  | ':' :: rest =>
    if (scheme.head?.any Char.isAlpha) = true then some (scheme.map Char.toLower, rest) else none
  | _ => none

def endsAuthority (c : Char) : Bool := isSlash c || c = '?' || c = '#'

/-- What stands before the last `@`, and what stands after it. -/
def splitUserinfo (s : List Char) : Option (List Char) × List Char :=
  let hostPort := s.rtakeWhile fun c => c ≠ '@'
  if hostPort.length = s.length then (none, s)
  else (some (s.take (s.length - hostPort.length - 1)), hostPort)

/-- The host and the port, at the first colon that is not in brackets. -/
def splitPort : Bool → List Char → List Char × Option (List Char)
  | _, [] => ([], none)
  | inside, c :: rest =>
    if c = ':' && !inside then ([], some rest)
    else
      let parts := splitPort (c = '[' || (inside && c ≠ ']')) rest
      (c :: parts.1, parts.2)

def defaultPortOf (scheme : List Char) : Nat := if scheme = "http".toList then 80 else 443

def readPort (scheme : List Char) : Option (List Char) → Option (Option Nat)
  | none => some none
  | some [] => some none
  | some digits => (readDecimal digits).bind fun n =>
    if 65535 < n then none else some (if n = defaultPortOf scheme then none else some n)

def readUntil (c : Char) (s : List Char) : List Char × Option (List Char) :=
  match splitOnce c s with
  | none => (s, none)
  | some (before, after) => (before, some after)

def nonEmpty (s : List Char) : Option (List Char) := if s = [] then none else some s

/-- The parts of a web address, after the colon of its scheme. -/
def readWeb (p : UrlParser) (scheme s : List Char) : Option WebAddress := do
  let s := s.dropWhile isSlash
  let authority := s.takeWhile fun c => !endsAuthority c
  let (rest, fragment) := readUntil '#' (s.drop authority.length)
  let (path, query) := readUntil '?' rest
  let (userinfo, hostPort) := splitUserinfo authority
  let (username, password) := readUntil ':' (userinfo.getD [])
  let (hostText, portText) := splitPort false hostPort
  let host ← p.host hostText
  let port ← readPort scheme portText
  some ⟨scheme, username, password.bind nonEmpty, some host, port, readPath path, query, fragment⟩

def parse (p : UrlParser) (s : List Char) : Option WebAddress := do
  let (scheme, rest) ← readScheme (cleaned s)
  if scheme = "http".toList ∨ scheme = "https".toList then readWeb p scheme rest
  else (p.other scheme rest).map fun a => { a with scheme }

end Reading

section Writing
variable (a : WebAddress)

def portText (port : Option Nat) : List Char := port.elim [] fun n => ':' :: Nat.toDigits 10 n

def userinfoText : List Char :=
  let password := a.password.elim [] fun s => ':' :: s
  if a.username = [] ∧ a.password = none then [] else a.username ++ password ++ ['@']

def serialize : List Char :=
  a.scheme ++ "://".toList ++ userinfoText a ++ a.host.getD [] ++ portText a.port ++
    pathText a.path ++ a.query.elim [] (fun s => '?' :: s) ++ a.fragment.elim [] fun s => '#' :: s

end Writing

def isHostChar (c : Char) : Bool :=
  0x20 < c.toNat && c.toNat ≤ 0x7E && !endsAuthority c && c ≠ '@'

/-- What the standard says of hosts: they are written in visible ASCII characters, without
the signs that end an authority; colons stand in brackets; and a host that is read again is
the same. -/
structure HostStandard (p : UrlParser) : Prop where
  stable : ∀ s t, p.host s = some t → p.host t = some t
  nonempty : ∀ s t, p.host s = some t → t ≠ []
  plain : ∀ s t, p.host s = some t → ∀ c ∈ t, isHostChar c = true
  brackets : ∀ s t, p.host s = some t → (∀ c ∈ t, c ≠ ':' ∧ c ≠ '[') ∨
    ∃ inner, t = '[' :: (inner ++ [']']) ∧ ∀ c ∈ inner, c ≠ ']'

/-- A parser of the plainest hosts: dotted names in small letters, which are written as they
are. -/
def plainHosts : UrlParser where
  host s := if s ≠ [] ∧ s.all (fun c => c.isLower || c = '.') = true then some s else none
  other _ _ := none

theorem plainHosts_standard : HostStandard plainHosts := by
  have hparse : ∀ s t, plainHosts.host s = some t →
      s = t ∧ t ≠ [] ∧ ∀ c ∈ t, (c.isLower || c = '.') = true := by
    intro s t h
    simp only [plainHosts, Option.ite_none_right_eq_some, Option.some.injEq] at h
    obtain ⟨⟨hne, hall⟩, rfl⟩ := h
    exact ⟨rfl, hne, List.all_eq_true.mp hall⟩
  have hchar : ∀ c : Char, (c.isLower || c = '.') = true →
      isHostChar c = true ∧ c ≠ ':' ∧ c ≠ '[' := by
    intro c hc
    rcases Bool.or_eq_true_iff.mp hc with hc | hc
    · delta Char.isLower at hc
      simp only [Bool.and_eq_true, decide_eq_true_eq, UInt32.le_iff_toNat_le] at hc
      have hrange : 97 ≤ c.toNat ∧ c.toNat ≤ 122 := hc
      have hne : ∀ d : Char, d.toNat < 97 → c ≠ d := by
        rintro d hd rfl
        omega
      refine ⟨?_, hne ':' (by decide), hne '[' (by decide)⟩
      simp [isHostChar, endsAuthority, isSlash, hne '/' (by decide), hne '\\' (by decide),
        hne '?' (by decide), hne '#' (by decide), hne '@' (by decide)]
      omega
    · rw [of_decide_eq_true hc]
      decide
  refine ⟨fun s t h => ?_, fun s t h => (hparse s t h).2.1, fun s t h c hc => ?_,
    fun s t h => .inl fun c hc => ?_⟩
  · rw [(hparse s t h).1] at h
    exact h
  · exact (hchar c ((hparse s t h).2.2 c hc)).1
  · exact (hchar c ((hparse s t h).2.2 c hc)).2

structure WellRead (p : UrlParser) (a : WebAddress) : Prop where
  scheme : a.scheme = "http".toList ∨ a.scheme = "https".toList
  host : ∃ t, a.host = some t ∧ p.host t = some t
  port : ∀ n ∈ a.port, n ≤ 65535 ∧ n ≠ defaultPortOf a.scheme
  path : ∀ s ∈ a.path, CleanSegment s

section Parts

theorem readPort_ok {scheme : List Char} {text : Option (List Char)} {port : Option Nat}
    (h : readPort scheme text = some port) : ∀ n ∈ port, n ≤ 65535 ∧ n ≠ defaultPortOf scheme := by
  unfold readPort at h
  split at h
  · cases h
    simp
  · cases h
    simp
  · obtain ⟨n, -, hn⟩ := Option.bind_eq_some_iff.mp h
    split at hn
    · cases hn
    · cases hn
      intro m hm
      split at hm
      · cases hm
      · cases hm
        exact ⟨by omega, by assumption⟩

theorem readPath_clean (s : List Char) : ∀ x ∈ readPath s, CleanSegment x := by
  refine walkPath_clean (by simp) fun x hx c hc => ?_
  have hmem : c ∈ ((s.drop 1).splitOnP isSlash).flatten := List.mem_flatten.mpr ⟨x, hx, hc⟩
  rw [flatten_splitOnP] at hmem
  have hslash := (List.mem_filter.mp hmem).2
  simpa [isSlash] using hslash

theorem readWeb_wellRead {p : UrlParser} (hp : HostStandard p) {scheme s : List Char}
    {a : WebAddress} (hscheme : scheme = "http".toList ∨ scheme = "https".toList)
    (h : readWeb p scheme s = some a) : WellRead p a := by
  unfold readWeb at h
  simp only [Option.bind_eq_bind, Option.bind_eq_some_iff] at h
  obtain ⟨t, ht, port, hport, h⟩ := h
  cases h
  exact ⟨hscheme, ⟨t, rfl, hp.stable _ _ ht⟩, readPort_ok hport, readPath_clean _⟩

theorem splitOnce_none {c : Char} {s : List Char} (h : c ∉ s) : splitOnce c s = none := by
  induction s with
  | nil => rfl
  | cons x s ih =>
    simp only [List.mem_cons, not_or] at h
    simp [splitOnce, Ne.symm h.1, ih h.2]

theorem readUntil_none {c : Char} {s : List Char} (h : c ∉ s) : readUntil c s = (s, none) := by
  rw [readUntil, splitOnce_none h]

theorem splitUserinfo_none {s : List Char} (h : '@' ∉ s) : splitUserinfo s = (none, s) := by
  have hall : s.rtakeWhile (fun c => c ≠ '@') = s := by
    rw [List.rtakeWhile_eq_self_iff]
    intro c hc
    have hne : c ≠ '@' := fun heq => h (heq ▸ hc)
    simpa using hne
  rw [splitUserinfo, hall]
  simp

theorem splitPort_outside {t : List Char} (h : ∀ c ∈ t, c ≠ ':' ∧ c ≠ '[') (rest : List Char) :
    splitPort false (t ++ rest) = (t ++ (splitPort false rest).1, (splitPort false rest).2) := by
  induction t with
  | nil => rfl
  | cons c t ih =>
    have hc := h c List.mem_cons_self
    have ht := ih fun x hx => h x (List.mem_cons_of_mem _ hx)
    simp [splitPort, hc.1, hc.2, ht]

theorem splitPort_inside {t : List Char} (h : ∀ c ∈ t, c ≠ ']') (rest : List Char) :
    splitPort true (t ++ rest) = (t ++ (splitPort true rest).1, (splitPort true rest).2) := by
  induction t with
  | nil => rfl
  | cons c t ih =>
    have hc := h c List.mem_cons_self
    have ht := ih fun x hx => h x (List.mem_cons_of_mem _ hx)
    simp [splitPort, hc, ht]

theorem splitPort_host {t : List Char} (h : (∀ c ∈ t, c ≠ ':' ∧ c ≠ '[') ∨
      ∃ inner, t = '[' :: (inner ++ [']']) ∧ ∀ c ∈ inner, c ≠ ']') (port : Option Nat) :
    splitPort false (t ++ portText port) = (t, port.map (Nat.toDigits 10)) := by
  have hport : splitPort false (portText port) = ([], port.map (Nat.toDigits 10)) := by
    cases port <;> rfl
  rcases h with h | ⟨inner, rfl, hinner⟩
  · rw [splitPort_outside h, hport]
    simp
  · have hclose : splitPort true (']' :: portText port) =
        ([']'], port.map (Nat.toDigits 10)) := by simp [splitPort, hport]
    have hopen : splitPort true (inner ++ ']' :: portText port) =
        (inner ++ [']'], port.map (Nat.toDigits 10)) := by
      rw [splitPort_inside hinner, hclose]
    simp [splitPort, hopen]

theorem readPort_digits {scheme : List Char} {port : Option Nat}
    (h : ∀ n ∈ port, n ≤ 65535 ∧ n ≠ defaultPortOf scheme) :
    readPort scheme (port.map (Nat.toDigits 10)) = some port := by
  cases port with
  | none => rfl
  | some n =>
    obtain ⟨hmax, hdefault⟩ := h n rfl
    obtain ⟨d, digits, hdigits⟩ := List.exists_cons_of_ne_nil (Nat.toDigits_ne_nil (n := n))
    have hread := readDecimal_toDigits n
    rw [hdigits] at hread
    rw [Option.map_some, hdigits]
    simp [readPort, hread, Nat.not_lt.mpr hmax, hdefault]

end Parts

structure WebAddress.Bare (a : WebAddress) : Prop where
  username : a.username = []
  password : a.password = none
  query : a.query = none
  fragment : a.fragment = none

def addressText (a : WebAddress) : List Char := trimEndSlashes (serialize a)

def authorityText (a : WebAddress) : List Char := a.host.getD [] ++ portText a.port

section Again
variable {p : UrlParser} {a : WebAddress}

theorem isHostChar_digit {c : Char} (h : c.isDigit = true) : isHostChar c = true := by
  have hrange : 48 ≤ c.toNat ∧ c.toNat ≤ 57 := by
    simp only [Char.isDigit, Bool.and_eq_true, decide_eq_true_eq, UInt32.le_iff_toNat_le] at h
    exact h
  have hne : ∀ d : Char, d.toNat < 48 ∨ 57 < d.toNat → c ≠ d := by
    rintro d hd rfl
    omega
  simp [isHostChar, endsAuthority, isSlash, hne '/' (by decide), hne '\\' (by decide),
    hne '?' (by decide), hne '#' (by decide), hne '@' (by decide)]
  omega

theorem authorityText_plain (hp : HostStandard p) (ha : WellRead p a) :
    ∀ c ∈ authorityText a, isHostChar c = true := by
  obtain ⟨t, hhost, ht⟩ := ha.host
  intro c hc
  rw [authorityText, hhost] at hc
  rcases List.mem_append.mp hc with hc | hc
  · exact hp.plain t t ht c hc
  · cases hport : a.port with
    | none =>
      rw [hport] at hc
      cases hc
    | some n =>
      rw [hport] at hc
      rcases List.mem_cons.mp hc with rfl | hc
      · decide
      · exact isHostChar_digit (Nat.isDigit_of_mem_toDigits (by decide) (by decide) hc)

theorem authorityText_ne_nil (hp : HostStandard p) (ha : WellRead p a) :
    authorityText a ≠ [] := by
  obtain ⟨t, hhost, ht⟩ := ha.host
  rw [authorityText, hhost]
  exact List.append_ne_nil_of_left_ne_nil (hp.nonempty t t ht) _

theorem serialize_bare (h : a.Bare) :
    serialize a = a.scheme ++ ("://".toList ++ (authorityText a ++ pathText a.path)) := by
  simp [serialize, userinfoText, h.username, h.password, h.query, h.fragment, authorityText]

theorem rdropWhile_append {α : Type} {q : α → Bool} {s : List α} (hne : s ≠ [])
    (h : q (s.getLast hne) = false) (t : List α) :
    (s ++ t).rdropWhile q = s ++ t.rdropWhile q := by
  induction t using List.reverseRecOn with
  | nil => simpa using List.rdropWhile_eq_self_iff.mpr fun _ => by simp [h]
  | append_singleton t x ih =>
    rw [← List.append_assoc]
    cases hx : q x with
    | true => rw [List.rdropWhile_concat_pos _ _ _ hx, List.rdropWhile_concat_pos _ _ _ hx, ih]
    | false =>
      rw [List.rdropWhile_concat_neg _ _ _ (by simp [hx]),
        List.rdropWhile_concat_neg _ _ _ (by simp [hx]), List.append_assoc]

theorem isHostChar_ends {c : Char} (h : isHostChar c = true) : endsAuthority c = false := by
  simp only [isHostChar, Bool.and_eq_true, Bool.not_eq_true'] at h
  exact h.1.2

theorem addressText_bare (hp : HostStandard p) (ha : WellRead p a) (h : a.Bare) :
    addressText a = a.scheme ++ ("://".toList ++
      (authorityText a ++ trimEndSlashes (pathText a.path))) := by
  have hne := authorityText_ne_nil hp ha
  have hlast := isHostChar_ends (authorityText_plain hp ha _ (List.getLast_mem hne))
  simp only [endsAuthority, isSlash, Bool.or_eq_false_iff] at hlast
  have hfront : a.scheme ++ "://".toList ++ authorityText a ≠ [] :=
    List.append_ne_nil_of_right_ne_nil _ hne
  have htext : serialize a =
      (a.scheme ++ "://".toList ++ authorityText a) ++ pathText a.path := by
    rw [serialize_bare h]
    simp
  rw [addressText, trimEndSlashes, htext, rdropWhile_append hfront]
  · simp [trimEndSlashes]
  · rw [List.getLast_append_of_right_ne_nil _ _ hne]
    exact hlast.1.1.1

theorem trimmedPath_cases (h : ∀ s ∈ a.path, CleanSegment s) :
    trimEndSlashes (pathText a.path) = [] ∨
      ∃ rest, trimEndSlashes (pathText a.path) = '/' :: rest := by
  rw [trimEndSlashes_pathText h]
  cases a.path.rdropWhile List.isEmpty with
  | nil => exact .inl rfl
  | cons s rest => exact .inr ⟨_, rfl⟩

theorem trimmedPath_plain (h : ∀ s ∈ a.path, CleanSegment s) :
    ∀ c ∈ trimEndSlashes (pathText a.path), encodedInPath c = false := by
  intro c hc
  have hmem := (List.rdropWhile_prefix _ _).subset hc
  obtain ⟨s, hs, hc⟩ := List.mem_flatMap.mp hmem
  rcases List.mem_cons.mp hc with rfl | hc
  · decide
  · exact ((h s hs).plain c hc).1

theorem visible_of_plain {c : Char} (h : encodedInPath c = false) :
    0x20 < c.toNat ∧ c.toNat ≤ 0x7E ∧ c ≠ '#' ∧ c ≠ '?' := by
  simp only [encodedInPath, Bool.or_eq_false_iff, decide_eq_false_iff_not] at h
  obtain ⟨⟨hlow, hhigh⟩, hset⟩ := h
  refine ⟨by omega, by omega, ?_, ?_⟩
  · rintro rfl
    revert hset
    decide
  · rintro rfl
    revert hset
    decide

theorem addressText_visible (hp : HostStandard p) (ha : WellRead p a) (h : a.Bare) :
    ∀ c ∈ addressText a, 0x20 < c.toNat ∧ c.toNat ≤ 0x7E := by
  intro c hc
  rw [addressText_bare hp ha h] at hc
  rcases List.mem_append.mp hc with hc | hc
  · have hhttp : ∀ x ∈ "http".toList, 0x20 < x.toNat ∧ x.toNat ≤ 0x7E := by simp
    have hhttps : ∀ x ∈ "https".toList, 0x20 < x.toNat ∧ x.toNat ≤ 0x7E := by simp
    rcases ha.scheme with hs | hs
    · exact hhttp c (hs ▸ hc)
    · exact hhttps c (hs ▸ hc)
  rcases List.mem_append.mp hc with hc | hc
  · have hall : ∀ x ∈ "://".toList, 0x20 < x.toNat ∧ x.toNat ≤ 0x7E := by simp
    exact hall c hc
  rcases List.mem_append.mp hc with hc | hc
  · have hchar := authorityText_plain hp ha c hc
    simp only [isHostChar, Bool.and_eq_true, decide_eq_true_eq] at hchar
    exact hchar.1.1
  · have hchar := visible_of_plain (trimmedPath_plain ha.path c hc)
    exact ⟨hchar.1, hchar.2.1⟩

theorem cleaned_of_visible {s : List Char} (h : ∀ c ∈ s, 0x20 < c.toNat) : cleaned s = s := by
  rw [cleaned, strip_of_forall fun c hc => by simpa using h c hc, List.filter_eq_self]
  intro c hc
  have hne : ∀ d : Char, d.toNat ≤ 0x20 → c ≠ d := by
    rintro d hd rfl
    have := h c hc
    omega
  simp [hne '\t' (by decide), hne '\n' (by decide), hne '\r' (by decide)]

theorem readScheme_web {scheme : List Char} (h : scheme = "http".toList ∨ scheme = "https".toList)
    (rest : List Char) : readScheme (scheme ++ ':' :: rest) = some (scheme, rest) := by
  rcases h with rfl | rfl
  · rfl
  · rfl

theorem not_mem_of_visible {s : List Char} (h : ∀ c ∈ s, encodedInPath c = false) :
    '#' ∉ s ∧ '?' ∉ s :=
  ⟨fun hc => (visible_of_plain (h _ hc)).2.2.1 rfl, fun hc => (visible_of_plain (h _ hc)).2.2.2 rfl⟩

theorem takeWhile_authority {s : List Char} (hs : ∀ c ∈ s, isHostChar c = true) {path : List Char}
    (hpath : path = [] ∨ ∃ rest, path = '/' :: rest) :
    (s ++ path).takeWhile (fun c => !endsAuthority c) = s := by
  have hends : ∀ c ∈ s, (!endsAuthority c) = true := fun c hc => by
    rw [isHostChar_ends (hs c hc)]
    rfl
  rw [List.takeWhile_append_of_pos hends]
  rcases hpath with rfl | ⟨rest, rfl⟩
  · simp
  · simp [endsAuthority, isSlash]

theorem readWeb_written (hp : HostStandard p) (ha : WellRead p a) (h : a.Bare) {path : List Char}
    (hpath : path = [] ∨ ∃ rest, path = '/' :: rest)
    (hplain : ∀ c ∈ path, encodedInPath c = false) :
    readWeb p a.scheme ('/' :: '/' :: (authorityText a ++ path)) =
      some { a with path := readPath path } := by
  have hchars := authorityText_plain hp ha
  have hslashes : ('/' :: '/' :: (authorityText a ++ path)).dropWhile isSlash =
      authorityText a ++ path := by
    obtain ⟨c, rest, hcons⟩ := List.exists_cons_of_ne_nil (authorityText_ne_nil hp ha)
    have hc := isHostChar_ends (hchars c (by rw [hcons]; exact List.mem_cons_self))
    simp only [endsAuthority, Bool.or_eq_false_iff] at hc
    have hslash : isSlash '/' = true := rfl
    simp [hcons, hslash, hc.1.1]
  have hat : '@' ∉ authorityText a := fun hc => by
    have hat := hchars _ hc
    revert hat
    decide
  obtain ⟨t, hhost, ht⟩ := ha.host
  have hsplit : splitPort false (authorityText a) = (t, a.port.map (Nat.toDigits 10)) := by
    rw [authorityText, hhost]
    exact splitPort_host (hp.brackets t t ht) a.port
  have hnone : readUntil ':' ([] : List Char) = ([], none) := rfl
  obtain ⟨hhash, hquery⟩ := not_mem_of_visible hplain
  simp only [readWeb, hslashes, takeWhile_authority hchars hpath, List.drop_left,
    readUntil_none hhash, readUntil_none hquery, splitUserinfo_none hat, Option.getD_none, hnone,
    hsplit, ht, readPort_digits ha.port, Option.bind_eq_bind, Option.bind_some, Option.bind_none]
  obtain ⟨scheme, username, password, host, port, segments, query, fragment⟩ := a
  obtain ⟨rfl, rfl, rfl, rfl⟩ := h
  rw [← hhost]

/-- An address without slashes at its end is read as itself, with the path that is left. -/
theorem parse_addressText (hp : HostStandard p) (ha : WellRead p a) (h : a.Bare) :
    parse p (addressText a) =
      some { a with path := readPath (trimEndSlashes (pathText a.path)) } := by
  have hscheme : readScheme (addressText a) = some (a.scheme,
      '/' :: '/' :: (authorityText a ++ trimEndSlashes (pathText a.path))) := by
    rw [addressText_bare hp ha h]
    exact readScheme_web ha.scheme _
  rw [parse, cleaned_of_visible fun c hc => (addressText_visible hp ha h c hc).1, hscheme]
  simp only [Option.bind_eq_bind, Option.bind_some, ha.scheme, if_true]
  exact readWeb_written hp ha h (trimmedPath_cases ha.path) (trimmedPath_plain ha.path)

theorem addressText_again (hp : HostStandard p) (ha : WellRead p a) (h : a.Bare) :
    addressText { a with path := readPath (trimEndSlashes (pathText a.path)) } = addressText a := by
  have ha' : WellRead p { a with path := readPath (trimEndSlashes (pathText a.path)) } :=
    ⟨ha.scheme, ha.host, ha.port, readPath_clean _⟩
  rw [addressText_bare hp ha h,
    addressText_bare hp ha' ⟨h.username, h.password, h.query, h.fragment⟩]
  simp only [authorityText, trimEndSlashes_readPath ha.path]

theorem parse_wellRead (hp : HostStandard p) {s : List Char} (h : parse p s = some a)
    (hscheme : a.scheme = "http".toList ∨ a.scheme = "https".toList) : WellRead p a := by
  unfold parse at h
  simp only [Option.bind_eq_bind, Option.bind_eq_some_iff, Prod.exists] at h
  obtain ⟨scheme, rest, -, h⟩ := h
  split at h
  · next hweb => exact readWeb_wellRead hp hweb h
  · next hother =>
    obtain ⟨other, -, rfl⟩ := Option.map_eq_some_iff.mp h
    exact absurd hscheme hother

end Again

section Lengths
variable {p : UrlParser} {a : WebAddress}

/-- The characters of a bare address once it is written: the scheme with `://`, the host
and its port, and a slash before each segment up to the last one that is not empty. -/
def writtenLength (a : WebAddress) : Nat :=
  a.scheme.length + 3 + (authorityText a).length +
    ((a.path.rdropWhile List.isEmpty).map fun s => s.length + 1).sum

theorem length_addressText (hp : HostStandard p) (ha : WellRead p a) (h : a.Bare) :
    (addressText a).length = writtenLength a := by
  have hpath : (pathText (a.path.rdropWhile List.isEmpty)).length =
      ((a.path.rdropWhile List.isEmpty).map fun s => s.length + 1).sum := by
    simp [pathText, List.length_flatMap]
  have hcolon : ("://".toList).length = 3 := rfl
  rw [addressText_bare hp ha h, trimEndSlashes_pathText ha.path, writtenLength]
  simp only [List.length_append, hpath, hcolon]
  omega

theorem utf8ByteSize_of_visible {s : List Char} (h : ∀ c ∈ s, c.toNat ≤ 0x7E) :
    (String.ofList s).utf8ByteSize = s.length := by
  induction s with
  | nil => rfl
  | cons c s ih =>
    have hc : c.utf8Size = 1 := by
      have hle := h c List.mem_cons_self
      rw [Char.utf8Size_eq_one_iff, UInt32.le_iff_toNat_le]
      exact hle.trans (by decide)
    have hs := ih fun x hx => h x (List.mem_cons_of_mem _ hx)
    rw [String.ofList_cons, String.utf8ByteSize_append, String.utf8ByteSize_singleton, hc, hs,
      List.length_cons, Nat.add_comm]

theorem utf8ByteSize_le (s : List Char) : (String.ofList s).utf8ByteSize ≤ 4*s.length := by
  induction s with
  | nil => exact Nat.le_refl 0
  | cons c s ih =>
    have hc := c.utf8Size_le_four
    rw [String.ofList_cons, String.utf8ByteSize_append, String.utf8ByteSize_singleton,
      List.length_cons]
    omega

theorem utf8ByteSize_addressText (hp : HostStandard p) (ha : WellRead p a) (h : a.Bare) :
    (String.ofList (addressText a)).utf8ByteSize = writtenLength a := by
  rw [utf8ByteSize_of_visible fun c hc => (addressText_visible hp ha h c hc).2,
    length_addressText hp ha h]

theorem addressText_ne_nil (hp : HostStandard p) (ha : WellRead p a) (h : a.Bare) :
    addressText a ≠ [] := by
  rw [addressText_bare hp ha h]
  exact List.append_ne_nil_of_right_ne_nil _ (List.append_ne_nil_of_left_ne_nil (by decide) _)

end Lengths

end Cinder.Streams
