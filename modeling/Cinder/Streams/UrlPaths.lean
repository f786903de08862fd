import Cinder.Streams.DecimalTexts
import Mathlib.Data.List.DropRight
set_option autoImplicit false

/-!
The paths of web addresses, as the URL standard reads and writes them: segments with
percent-encoding, where dots stand for the same folder and for the one above. A component
of an address has more characters encoded.
-/

namespace Cinder.Streams

/-- The path percent-encode set. -/
def encodedInPath (c : Char) : Bool :=
  c.toNat ≤ 0x20 || 0x7E < c.toNat ||
    ['"', '#', '<', '>', '?', '^', '\x60', '\x7b', '\x7d'].contains c

def hexDigit (n : Nat) : Char := if n < 10 then Char.ofNat (48 + n) else Char.ofNat (55 + n)

def percentByte (b : UInt8) : List Char :=
  ['%', hexDigit (b.toNat/16 % 16), hexDigit (b.toNat % 16)]

def percentChar (c : Char) : List Char :=
  if encodedInPath c then (String.utf8EncodeChar c).flatMap percentByte else [c]

def percentEncode (s : List Char) : List Char := s.flatMap percentChar

theorem percentEncode_of_plain {s : List Char} (h : ∀ c ∈ s, encodedInPath c = false) :
    percentEncode s = s := by
  induction s with
  | nil => rfl
  | cons c s ih =>
    have hc : percentChar c = [c] := by simp [percentChar, h c List.mem_cons_self]
    have hs := ih fun x hx => h x (List.mem_cons_of_mem _ hx)
    simpa [percentEncode, hc] using hs

theorem percentByte_plain (b : UInt8) :
    ∀ c ∈ percentByte b, encodedInPath c = false ∧ c ≠ '/' ∧ c ≠ '\\' := by
  have hdigit : ∀ n < 16, encodedInPath (hexDigit n) = false ∧ hexDigit n ≠ '/' ∧
      hexDigit n ≠ '\\' := by decide
  have hlow : ∀ n : Nat, n % 16 < 16 := fun n => Nat.mod_lt n (by decide)
  intro c hc
  simp only [percentByte, List.mem_cons, List.not_mem_nil, or_false] at hc
  rcases hc with rfl | rfl | rfl
  · decide
  · exact hdigit _ (hlow _)
  · exact hdigit _ (hlow _)

theorem percentEncode_plain {s : List Char} (h : ∀ c ∈ s, c ≠ '/' ∧ c ≠ '\\') :
    ∀ c ∈ percentEncode s, encodedInPath c = false ∧ c ≠ '/' ∧ c ≠ '\\' := by
  intro c hc
  obtain ⟨x, hx, hc⟩ := List.mem_flatMap.mp hc
  unfold percentChar at hc
  split at hc
  · obtain ⟨b, -, hc⟩ := List.mem_flatMap.mp hc
    exact percentByte_plain b c hc
  · next hplain =>
    rw [List.mem_singleton.mp hc]
    exact ⟨by simpa using hplain, h x hx⟩

def isSingleDot (s : List Char) : Bool :=
  [['.'], ['%', '2', 'e']].contains (s.map Char.toLower)

def isDoubleDot (s : List Char) : Bool :=
  [['.', '.'], ['.', '%', '2', 'e'], ['%', '2', 'e', '.'],
    ['%', '2', 'e', '%', '2', 'e']].contains (s.map Char.toLower)

def isSlash (c : Char) : Bool := c = '/' || c = '\\'

/-- The segments one after the other, onto the path so far. The last one leaves an empty
segment behind if it is dots. -/
def walkPath (path : List (List Char)) : List (List Char) → List (List Char)
  | [] => path
  | s :: rest =>
    let segment := percentEncode s
    let last := if rest.isEmpty then [[]] else []
    walkPath
      (if isDoubleDot segment then path.dropLast ++ last
      else if isSingleDot segment then path ++ last
      else path ++ [segment]) rest

def readPath (s : List Char) : List (List Char) := walkPath [] ((s.drop 1).splitOnP isSlash)

def pathText (path : List (List Char)) : List Char := path.flatMap fun s => '/' :: s

def trimEndSlashes (s : List Char) : List Char := s.rdropWhile fun c => c = '/'

structure CleanSegment (s : List Char) : Prop where
  plain : ∀ c ∈ s, encodedInPath c = false ∧ c ≠ '/' ∧ c ≠ '\\'
  single : isSingleDot s = false
  double : isDoubleDot s = false

theorem cleanSegment_nil : CleanSegment [] := ⟨by simp, rfl, rfl⟩

theorem walkPath_clean {segments path : List (List Char)} (hpath : ∀ s ∈ path, CleanSegment s)
    (hsegments : ∀ s ∈ segments, ∀ c ∈ s, c ≠ '/' ∧ c ≠ '\\') :
    ∀ s ∈ walkPath path segments, CleanSegment s := by
  induction segments generalizing path with
  | nil => exact hpath
  | cons x rest ih =>
    refine ih (fun s hs => ?_) fun s hs => hsegments s (List.mem_cons_of_mem _ hs)
    have hlast : ∀ s ∈ (if rest.isEmpty then [[]] else [] : List (List Char)), CleanSegment s := by
      intro s hs
      split at hs
      · rw [List.mem_singleton.mp hs]
        exact cleanSegment_nil
      · cases hs
    split at hs
    · rcases List.mem_append.mp hs with hs | hs
      · exact hpath s (List.dropLast_subset _ hs)
      · exact hlast s hs
    · next hdouble =>
      split at hs
      · rcases List.mem_append.mp hs with hs | hs
        · exact hpath s hs
        · exact hlast s hs
      · next hsingle =>
        rcases List.mem_append.mp hs with hs | hs
        · exact hpath s hs
        · rw [List.mem_singleton.mp hs]
          exact ⟨percentEncode_plain (hsegments x List.mem_cons_self), by simpa using hsingle,
            by simpa using hdouble⟩

theorem walkPath_of_clean {segments : List (List Char)} (h : ∀ s ∈ segments, CleanSegment s)
    (path : List (List Char)) : walkPath path segments = path ++ segments := by
  induction segments generalizing path with
  | nil => simp [walkPath]
  | cons s rest ih =>
    have hs := h s List.mem_cons_self
    have hrest := ih fun x hx => h x (List.mem_cons_of_mem _ hx)
    rw [walkPath, percentEncode_of_plain fun c hc => (hs.plain c hc).1]
    simp [hs.single, hs.double, hrest]

theorem splitOnP_pathText {s : List Char} {rest : List (List Char)}
    (h : ∀ x ∈ s :: rest, CleanSegment x) :
    ((pathText (s :: rest)).drop 1).splitOnP isSlash = s :: rest := by
  induction rest generalizing s with
  | nil =>
    have hs : ∀ c ∈ s, isSlash c = false := fun c hc => by
      have hc := ((h s List.mem_cons_self).plain c hc).2
      simp [isSlash, hc.1, hc.2]
    simpa [pathText] using List.splitOnP_eq_singleton hs
  | cons t rest ih =>
    have hs : ∀ c ∈ s, isSlash c = false := fun c hc => by
      have hc := ((h s List.mem_cons_self).plain c hc).2
      simp [isSlash, hc.1, hc.2]
    have hrest := ih fun x hx => h x (List.mem_cons_of_mem _ hx)
    have hcut : (pathText (s :: t :: rest)).drop 1 =
        s ++ '/' :: (pathText (t :: rest)).drop 1 := by simp [pathText]
    rw [hcut, List.splitOnP_append_cons_of_forall_mem hs '/' (by decide), hrest]

theorem readPath_pathText {path : List (List Char)} (hne : path ≠ [])
    (h : ∀ s ∈ path, CleanSegment s) : readPath (pathText path) = path := by
  obtain ⟨s, rest, rfl⟩ := List.exists_cons_of_ne_nil hne
  rw [readPath, splitOnP_pathText h, walkPath_of_clean h, List.nil_append]

theorem trimEndSlashes_pathText {path : List (List Char)} (h : ∀ s ∈ path, CleanSegment s) :
    trimEndSlashes (pathText path) = pathText (path.rdropWhile List.isEmpty) := by
  induction path using List.reverseRecOn with
  | nil => rfl
  | append_singleton path s ih =>
    have hpath := ih fun x hx => h x (List.mem_append_left _ hx)
    have htext : pathText (path ++ [s]) = pathText path ++ '/' :: s := by simp [pathText]
    cases s using List.reverseRecOn with
    | nil =>
      rw [htext, trimEndSlashes, List.rdropWhile_concat_pos _ _ _ (by decide),
        List.rdropWhile_concat_pos _ _ _ rfl]
      exact hpath
    | append_singleton s c =>
      have hc := ((h (s ++ [c]) (by simp)).plain c (by simp)).2.1
      have hkept : List.isEmpty (s ++ [c]) ≠ true := by simp
      rw [List.rdropWhile_concat_neg _ _ _ hkept, htext, trimEndSlashes]
      have hassoc : pathText path ++ '/' :: (s ++ [c]) = (pathText path ++ '/' :: s) ++ [c] := by
        simp
      rw [hassoc, List.rdropWhile_concat_neg _ _ _ (by simpa using hc)]

/-- A path that has lost the slashes at its end is read as one with the same text up to
these slashes. -/
theorem trimEndSlashes_readPath {path : List (List Char)} (h : ∀ s ∈ path, CleanSegment s) :
    trimEndSlashes (pathText (readPath (trimEndSlashes (pathText path)))) =
      trimEndSlashes (pathText path) := by
  have hsub : ∀ s ∈ path.rdropWhile List.isEmpty, CleanSegment s :=
    fun s hs => h s ((List.rdropWhile_prefix _ _).subset hs)
  rw [trimEndSlashes_pathText h]
  by_cases hnil : path.rdropWhile List.isEmpty = []
  · rw [hnil]
    rfl
  · rw [readPath_pathText hnil hsub, trimEndSlashes_pathText hsub, List.rdropWhile_idempotent]

section Components

/-- The characters that `encodeURIComponent` leaves. -/
def isUnreserved (c : Char) : Bool := c.isAlphanum || "-_.!~*'()".toList.contains c

def encodeURIComponent (s : List Char) : List Char :=
  s.flatMap fun c =>
    if isUnreserved c then [c] else (String.utf8EncodeChar c).flatMap percentByte

/-- The number of a digit that `hexDigit` writes. -/
def hexNumber (c : Char) : Nat := if c.isDigit then c.toNat-48 else c.toNat-55

def componentBytes : List Char → List UInt8
  | '%' :: a :: b :: s => UInt8.ofNat (16*hexNumber a+hexNumber b) :: componentBytes s
  | c :: s => c.toUInt8 :: componentBytes s
  | [] => []

theorem hexNumber_hexDigit {n : Nat} (h : n < 16) : hexNumber (hexDigit n) = n := by
  revert n
  decide

theorem componentBytes_percentByte (b : UInt8) (s : List Char) :
    componentBytes (percentByte b ++ s) = b :: componentBytes s := by
  have hlow : ∀ n : Nat, n % 16 < 16 := fun n => Nat.mod_lt n (by decide)
  have hb := b.toNat_lt
  have hvalue : 16*(b.toNat/16 % 16)+b.toNat % 16 = b.toNat := by omega
  rw [percentByte, List.cons_append, List.cons_append, List.cons_append, List.nil_append,
    componentBytes, hexNumber_hexDigit (hlow _), hexNumber_hexDigit (hlow _), hvalue,
    UInt8.ofNat_toNat]

theorem componentBytes_flatMap (bs : List UInt8) (s : List Char) :
    componentBytes (bs.flatMap percentByte ++ s) = bs ++ componentBytes s := by
  induction bs with
  | nil => rfl
  | cons b bs ih =>
    rw [List.flatMap_cons, List.append_assoc, componentBytes_percentByte, ih, List.cons_append]

theorem toNat_of_isUnreserved {c : Char} (h : isUnreserved c = true) : c.toNat ≤ 127 := by
  rw [isUnreserved, Bool.or_eq_true] at h
  rcases h with h | h
  · have hrange := toNat_of_isAlphanum h
    omega
  · have hall : "-_.!~*'()".toList.all (fun c => c.toNat ≤ 127) = true := by decide
    exact of_decide_eq_true (List.all_eq_true.mp hall c (List.contains_iff_mem.mp h))

theorem isUnreserved_spec {c : Char} (h : isUnreserved c = true) :
    c ≠ '%' ∧ c ≠ ':' ∧ String.utf8EncodeChar c = [c.toUInt8] := by
  have hcode := toNat_of_isUnreserved h
  have hsize : c.utf8Size = 1 := by
    rw [Char.utf8Size_eq_one_iff, UInt32.le_iff_toNat_le]
    exact hcode
  refine ⟨?_, ?_, String.utf8EncodeChar_eq_singleton hsize⟩
  · rintro rfl
    cases h
  · rintro rfl
    cases h

theorem componentBytes_encode (s : List Char) :
    componentBytes (encodeURIComponent s) = s.flatMap String.utf8EncodeChar := by
  induction s with
  | nil => rfl
  | cons c s ih =>
    rw [encodeURIComponent, List.flatMap_cons, List.flatMap_cons, ← encodeURIComponent, ← ih]
    split
    · next h =>
      obtain ⟨hpercent, -, hbytes⟩ := isUnreserved_spec h
      rw [hbytes]
      cases hrest : encodeURIComponent s with
      | nil => simp [componentBytes]
      | cons a t => simp [componentBytes, hpercent]
    · exact componentBytes_flatMap _ _

theorem flatMap_utf8EncodeChar_inj {s t : List Char}
    (h : s.flatMap String.utf8EncodeChar = t.flatMap String.utf8EncodeChar) : s = t := by
  have hbytes : s.utf8Encode = t.utf8Encode := congrArg List.toByteArray h
  have hdecoded := congrArg ByteArray.utf8Decode? hbytes
  rw [List.utf8Decode?_utf8Encode, List.utf8Decode?_utf8Encode] at hdecoded
  simpa using hdecoded

theorem encodeURIComponent_inj {s t : List Char}
    (h : encodeURIComponent s = encodeURIComponent t) : s = t := by
  apply flatMap_utf8EncodeChar_inj
  rw [← componentBytes_encode, h, componentBytes_encode]

theorem hexDigit_ne_colon {n : Nat} (h : n < 16) : hexDigit n ≠ ':' := by
  revert n
  decide

theorem colon_notMem_encodeURIComponent (s : List Char) : ':' ∉ encodeURIComponent s := by
  intro h
  obtain ⟨c, -, hc⟩ := List.mem_flatMap.mp h
  split at hc
  · next hfree =>
    exact (isUnreserved_spec hfree).2.1 (List.mem_singleton.mp hc).symm
  · obtain ⟨b, -, hb⟩ := List.mem_flatMap.mp hc
    simp only [percentByte, List.mem_cons, List.not_mem_nil, or_false] at hb
    rcases hb with hb | hb | hb
    · cases hb
    · exact hexDigit_ne_colon (Nat.mod_lt _ (by decide)) hb.symm
    · exact hexDigit_ne_colon (Nat.mod_lt _ (by decide)) hb.symm

end Components

end Cinder.Streams
