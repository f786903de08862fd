import Cinder.Ecma.JsonParsing
import Cinder.Papers.PaperReplies
set_option autoImplicit false

namespace Cinder.Papers
open Cinder.Streams Cinder.Host

section Bytes

def byteLength : List Char → ℕ
  | [] => 0
  | c :: s => c.utf8Size+byteLength s

/-- The text before a position and behind it, unless the position is inside of a character. -/
def cutBytes : ℕ → List Char → Option (List Char × List Char)
  | 0, s => some ([], s)
  | _+1, [] => none
  | n+1, c :: s =>
    if c.utf8Size ≤ n+1 then
      (cutBytes (n+1-c.utf8Size) s).map fun p => (c :: p.1, p.2)
    else none
termination_by structural _ s => s

/-- `s[start..=last]`, which is nothing where that panics. -/
def sliceBytes (s : List Char) (start last : ℕ) : Option (List Char) :=
  if last+1 < start then none
  else (cutBytes start s).bind fun p => (cutBytes (last+1-start) p.2).map Prod.fst

/-- `find`. -/
def findByte (c : Char) (s : List Char) : Option ℕ :=
  (s.idxOf? c).map fun i => byteLength (s.take i)

/-- `rfind`. -/
def rfindByte (c : Char) (s : List Char) : Option ℕ :=
  (lastIndexOf c s).map fun i => byteLength (s.take i)

@[simp] theorem byteLength_append (s t : List Char) :
    byteLength (s ++ t) = byteLength s+byteLength t := by
  induction s with
  | nil => simp [byteLength]
  | cons c s ih => simp [byteLength, ih, Nat.add_assoc]

theorem cutBytes_append (s t : List Char) : cutBytes (byteLength s) (s ++ t) = some (s, t) := by
  induction s with
  | nil => rw [byteLength, List.nil_append, cutBytes]
  | cons c s ih =>
    have hpos := c.utf8Size_pos
    obtain ⟨n, hn⟩ : ∃ n, byteLength (c :: s) = n+1 :=
      ⟨byteLength (c :: s)-1, by rw [byteLength]; omega⟩
    have hrest : n+1-c.utf8Size = byteLength s := by
      rw [← hn, byteLength]
      omega
    have hfits : c.utf8Size ≤ n+1 := by
      rw [← hn, byteLength]
      omega
    rw [hn, List.cons_append, cutBytes, if_pos hfits, hrest, ih]
    rfl

theorem byteLength_mono (s : List Char) : Monotone fun i => byteLength (s.take i) := by
  intro i j h
  obtain ⟨t, ht⟩ := List.take_prefix_take_left h (l := s)
  change byteLength (s.take i) ≤ byteLength (s.take j)
  rw [← ht, byteLength_append]
  omega

theorem byteLength_take_succ {s : List Char} {i : ℕ} (h : i < s.length) :
    byteLength (s.take (i+1)) = byteLength (s.take i)+s[i].utf8Size := by
  rw [List.take_succ_eq_append_getElem h, byteLength_append]
  rfl

theorem byteLength_lt {s : List Char} {i j : ℕ} (hlength : i < s.length) (h : i < j) :
    byteLength (s.take i) < byteLength (s.take j) := by
  have hstep := byteLength_take_succ hlength
  have hpos := s[i].utf8Size_pos
  have hmono : byteLength (s.take (i+1)) ≤ byteLength (s.take j) := byteLength_mono s h
  omega

theorem sliceBytes_take {s : List Char} {i j : ℕ} (hij : i ≤ j) (hj : j < s.length)
    (hbyte : s[j].utf8Size = 1) :
    sliceBytes s (byteLength (s.take i)) (byteLength (s.take j)) =
      some ((s.drop i).take (j+1-i)) := by
  have hmono : byteLength (s.take i) ≤ byteLength (s.take j) := byteLength_mono s hij
  have hnext := byteLength_take_succ hj
  rw [hbyte] at hnext
  have hslice : s.take (j+1) = s.take i ++ (s.drop i).take (j+1-i) := by
    rw [← List.take_add, Nat.add_sub_cancel' (Nat.le_succ_of_le hij)]
  have hlength : byteLength (s.take j)+1-byteLength (s.take i) =
      byteLength ((s.drop i).take (j+1-i)) := by
    rw [← hnext, hslice, byteLength_append]
    omega
  have hcut : cutBytes (byteLength (s.take i)) s = some (s.take i, s.drop i) := by
    have h := cutBytes_append (s.take i) (s.drop i)
    rwa [List.take_append_drop] at h
  have hcut' := cutBytes_append ((s.drop i).take (j+1-i)) ((s.drop i).drop (j+1-i))
  rw [List.take_append_drop, ← hlength] at hcut'
  rw [sliceBytes, if_neg (by omega), hcut, Option.bind_some, hcut']
  rfl

end Bytes

section Extraction

def earlier : Option ℕ → Option ℕ → Option ℕ
  | some array, some object => some (min array object)
  | some array, none => some array
  | none, object => object

def later : Option ℕ → Option ℕ → Option ℕ
  | some array, some object => some (max array object)
  | some array, none => some array
  | none, object => object

/-- `extract_json` at its positions in bytes, with nothing where it panics. -/
def extractJsonBytes (text : List Char) : Option (List Char) :=
  let fence := "\x60\x60\x60json".toList
  let trimmed := strip isWhitespace text
  let trimmed := trimTicks (dropPrefixes fence trimmed.length trimmed)
  match earlier (findByte '[' trimmed) (findByte '\x7b' trimmed),
      later (rfindByte ']' trimmed) (rfindByte '\x7d' trimmed) with
  | some start, some last =>
    if last ≤ start then some trimmed
    else (sliceBytes trimmed start last).map (strip isWhitespace)
  | _, _ => some trimmed

def isOpening (c : Char) : Bool := c = '[' || c = '\x7b'

def isClosing (c : Char) : Bool := c = ']' || c = '\x7d'

theorem firstBracket_eq_earlier (s : List Char) :
    firstBracket s = earlier (s.idxOf? '[') (s.idxOf? '\x7b') := by
  unfold firstBracket earlier
  cases s.idxOf? '[' <;> cases s.idxOf? '\x7b' <;> rfl

theorem lastBracket_eq_later (s : List Char) :
    lastBracket s = later (lastIndexOf ']' s) (lastIndexOf '\x7d' s) := by
  unfold lastBracket later
  cases lastIndexOf ']' s <;> cases lastIndexOf '\x7d' s <;> rfl

theorem earlier_map {f : ℕ → ℕ} (hf : Monotone f) (x y : Option ℕ) :
    earlier (x.map f) (y.map f) = (earlier x y).map f := by
  cases x <;> cases y <;> simp [earlier, hf.map_min]

theorem later_map {f : ℕ → ℕ} (hf : Monotone f) (x y : Option ℕ) :
    later (x.map f) (y.map f) = (later x y).map f := by
  cases x <;> cases y <;> simp [later, hf.map_max]

theorem later_map_antitone {f : ℕ → ℕ} (hf : Antitone f) (x y : Option ℕ) :
    later (x.map f) (y.map f) = (earlier x y).map f := by
  cases x <;> cases y <;> simp [later, earlier, hf.map_min]

theorem earlier_idxOf? (a b : Char) (s : List Char) :
    earlier (s.idxOf? a) (s.idxOf? b) = s.findIdx? fun c => c = a || c = b := by
  induction s with
  | nil => rfl
  | cons c s ih =>
    have hstep := earlier_map (f := (·+1)) (fun _ _ h => Nat.succ_le_succ h) (s.idxOf? a)
      (s.idxOf? b)
    rw [ih] at hstep
    rw [List.idxOf?_cons, List.idxOf?_cons, List.findIdx?_cons]
    by_cases ha : c = a
    · subst ha
      by_cases hb : c = b
      · simp [hb, earlier]
      · cases s.idxOf? b <;> simp [hb, earlier]
    · by_cases hb : c = b
      · subst hb
        cases s.idxOf? a <;> simp [ha, earlier]
      · simpa [ha, hb] using hstep

theorem firstBracket_eq (s : List Char) : firstBracket s = s.findIdx? isOpening := by
  rw [firstBracket_eq_earlier, earlier_idxOf?]
  rfl

theorem lastBracket_eq (s : List Char) :
    lastBracket s = (s.reverse.findIdx? isClosing).map fun i => s.length-1-i := by
  have hanti : Antitone fun i => s.length-1-i := fun _ _ h => Nat.sub_le_sub_left h _
  rw [lastBracket_eq_later, lastIndexOf, lastIndexOf, later_map_antitone hanti, earlier_idxOf?]
  rfl

theorem firstBracket_bound {s : List Char} {i : ℕ} (h : firstBracket s = some i) :
    i < s.length := by
  rw [firstBracket_eq] at h
  exact (List.findIdx?_eq_some_iff_getElem.mp h).1

theorem lastBracket_bound {s : List Char} {j : ℕ} (h : lastBracket s = some j) :
    ∃ hj : j < s.length, isClosing s[j] = true := by
  rw [lastBracket_eq] at h
  obtain ⟨k, hk, rfl⟩ := Option.map_eq_some_iff.mp h
  obtain ⟨hlength, hclosing, -⟩ := List.findIdx?_eq_some_iff_getElem.mp hk
  rw [List.length_reverse] at hlength
  rw [List.getElem_reverse] at hclosing
  exact ⟨by omega, hclosing⟩

theorem utf8Size_of_isClosing {c : Char} (h : isClosing c = true) : c.utf8Size = 1 := by
  simp only [isClosing, Bool.or_eq_true, decide_eq_true_eq] at h
  rcases h with rfl | rfl <;> rfl

/-- The positions in bytes give what the positions of characters give, and never panic. -/
theorem extractJsonBytes_eq (text : List Char) :
    extractJsonBytes text = some (extractJson (String.ofList text)).toList := by
  have htrim : (trim (String.ofList text)).toList = strip isWhitespace text := by
    rw [toList_trim, String.toList_ofList]
  rw [extractJsonBytes, extractJson, htrim]
  generalize trimTicks (dropPrefixes _ (strip isWhitespace text).length
    (strip isWhitespace text)) = s
  have hmono := byteLength_mono s
  simp only [findByte, rfindByte, earlier_map hmono, later_map hmono, ← firstBracket_eq_earlier,
    ← lastBracket_eq_later]
  cases hstart : firstBracket s with
  | none => simp
  | some i =>
    cases hlast : lastBracket s with
    | none => simp
    | some j =>
      have hi := firstBracket_bound hstart
      obtain ⟨hj, hclosing⟩ := lastBracket_bound hlast
      simp only [Option.map_some]
      by_cases h : j ≤ i
      · rw [if_pos (hmono h), if_pos h, String.toList_ofList]
      · have hlt := byteLength_lt hi (Nat.lt_of_not_le h)
        rw [if_neg (Nat.not_le.mpr hlt), if_neg h,
          sliceBytes_take (Nat.le_of_not_le h) hj (utf8Size_of_isClosing hclosing),
          Option.map_some, toList_trim, String.toList_ofList]

end Extraction

section Prose

def isBracket (c : Char) : Bool := isOpening c || isClosing c

/-- A text begins with a bracket that opens, and another character behind it is one that closes. -/
def Bracketed (core : List Char) : Prop :=
  ∃ b m d, core = b :: (m ++ [d]) ∧ isOpening b = true ∧ isClosing d = true

def StandsIn (core s : List Char) : Prop :=
  ∃ before behind, s = before ++ (core ++ behind) ∧ (∀ c ∈ before, isBracket c = false) ∧
    ∀ c ∈ behind, isBracket c = false

variable {core s t : List Char}

theorem not_isBracket {c : Char} (h : isBracket c = false) :
    isOpening c = false ∧ isClosing c = false := Bool.or_eq_false_iff.mp h

theorem isBracket_of_isOpening {c : Char} (h : isOpening c = true) : isBracket c = true := by
  rw [isBracket, h, Bool.true_or]

theorem isBracket_of_isClosing {c : Char} (h : isClosing c = true) : isBracket c = true := by
  rw [isBracket, h, Bool.or_true]

theorem StandsIn.of_append_left (hcore : core.head?.any isBracket = true)
    (h : StandsIn core (t ++ s)) (ht : ∀ c ∈ t, isBracket c = false) : StandsIn core s := by
  obtain ⟨before, behind, heq, hbefore, hbehind⟩ := h
  rcases List.append_eq_append_iff.mp heq with ⟨u, rfl, rfl⟩ | ⟨u, rfl, hu⟩
  · exact ⟨u, behind, rfl, fun c hc => hbefore c (List.mem_append_right t hc), hbehind⟩
  · cases u with
    | nil => exact ⟨[], behind, hu.symm, List.forall_mem_nil _, hbehind⟩
    | cons x u =>
      cases core with
      | nil => cases hcore
      | cons b core =>
        obtain ⟨rfl, -⟩ := List.cons.inj hu
        have hx := ht b (List.mem_append_right before List.mem_cons_self)
        rw [List.head?_cons, Option.any_some, hx] at hcore
        cases hcore

theorem StandsIn.reverse (h : StandsIn core s) : StandsIn core.reverse s.reverse := by
  obtain ⟨before, behind, rfl, hbefore, hbehind⟩ := h
  exact ⟨behind.reverse, before.reverse, by simp, by simpa using hbehind, by simpa using hbefore⟩

theorem StandsIn.dropWhile {p : Char → Bool} (hp : ∀ c, p c = true → isBracket c = false)
    (hcore : core.head?.any isBracket = true) (h : StandsIn core s) :
    StandsIn core (s.dropWhile p) := by
  rw [← List.takeWhile_append_dropWhile (p := p) (l := s)] at h
  exact h.of_append_left hcore fun c hc => hp c (List.mem_takeWhile_imp hc)

theorem StandsIn.strip {p : Char → Bool} (hp : ∀ c, p c = true → isBracket c = false)
    (hcore : Bracketed core) (h : StandsIn core s) : StandsIn core (strip p s) := by
  obtain ⟨b, m, d, rfl, hb, hd⟩ := hcore
  have hfront := h.dropWhile hp (by simp [isBracket_of_isOpening hb])
  have hback := hfront.reverse.dropWhile hp (by simp [isBracket_of_isClosing hd])
  have hstripped := hback.reverse
  rwa [List.reverse_reverse] at hstripped

theorem StandsIn.dropPrefixes {start : List Char} (hstart : ∀ c ∈ start, isBracket c = false)
    (hcore : Bracketed core) {n : ℕ} (h : StandsIn core s) :
    StandsIn core (dropPrefixes start n s) := by
  induction n generalizing s with
  | zero => exact h
  | succ n ih =>
    rw [Papers.dropPrefixes]
    split
    · next hprefix =>
      obtain ⟨u, rfl⟩ := List.isPrefixOf_iff_prefix.mp hprefix
      obtain ⟨b, m, d, rfl, hb, -⟩ := hcore
      rw [List.drop_left]
      exact ih (h.of_append_left (by simp [isBracket_of_isOpening hb]) hstart)
    · exact h

theorem findIdx?_of_standsIn {p : Char → Bool} {b : Char} {before rest : List Char}
    (hbefore : ∀ c ∈ before, p c = false) (hb : p b = true) :
    (before ++ b :: rest).findIdx? p = some before.length := by
  rw [List.findIdx?_append, List.findIdx?_eq_none_iff.mpr hbefore, List.findIdx?_cons, if_pos hb]
  simp

theorem strip_bracketed {p : Char → Bool} (hp : ∀ c, isBracket c = true → p c = false)
    (hcore : Bracketed core) : strip p core = core := by
  obtain ⟨b, m, d, rfl, hb, hd⟩ := hcore
  rw [Streams.strip, List.dropWhile_cons_of_neg
    (by rw [hp b (isBracket_of_isOpening hb)]; decide), ← List.cons_append,
    List.rdropWhile_concat_neg _ _ _ (by rw [hp d (isBracket_of_isClosing hd)]; decide)]

theorem not_isWhitespace_of_isBracket {c : Char} (h : isBracket c = true) :
    isWhitespace c = false := by
  simp only [isBracket, isOpening, isClosing, Bool.or_eq_true, decide_eq_true_eq] at h
  rcases h with (rfl | rfl) | (rfl | rfl) <;> rfl

theorem slice_of_standsIn (hcore : Bracketed core) (h : StandsIn core s) :
    ∃ i j, firstBracket s = some i ∧ lastBracket s = some j ∧ i < j ∧
      (s.drop i).take (j+1-i) = core := by
  obtain ⟨b, m, d, rfl, hb, hd⟩ := hcore
  obtain ⟨before, behind, rfl, hbefore, hbehind⟩ := h
  have hfirst : firstBracket (before ++ (b :: (m ++ [d]) ++ behind)) = some before.length := by
    rw [firstBracket_eq]
    exact findIdx?_of_standsIn (fun c hc => (not_isBracket (hbefore c hc)).1) hb
  have hreverse : (before ++ (b :: (m ++ [d]) ++ behind)).reverse =
      behind.reverse ++ d :: (m.reverse ++ b :: before.reverse) := by simp
  have hlast : lastBracket (before ++ (b :: (m ++ [d]) ++ behind)) =
      some (before.length+m.length+1) := by
    rw [lastBracket_eq, hreverse, findIdx?_of_standsIn
      (fun c hc => (not_isBracket (hbehind c (List.mem_reverse.mp hc))).2) hd, Option.map_some]
    simp
    omega
  refine ⟨_, _, hfirst, hlast, by omega, ?_⟩
  have hlength : before.length+m.length+1+1-before.length = (b :: (m ++ [d])).length := by
    simp
    omega
  rw [List.drop_left, hlength, List.take_left]

theorem not_isBracket_fence : ∀ c ∈ "\x60\x60\x60json".toList, isBracket c = false := by
  have hall : "\x60\x60\x60json".toList.all (fun c => !isBracket c) = true := by decide
  intro c hc
  exact (Bool.not_eq_eq_eq_not).mp (List.all_eq_true.mp hall c hc)

theorem extractJson_of_standsIn (hcore : Bracketed core) (h : StandsIn core s) :
    extractJson (String.ofList s) = String.ofList core := by
  have hspace : ∀ c, isWhitespace c = true → isBracket c = false := by
    intro c hc
    by_contra hbracket
    rw [not_isWhitespace_of_isBracket (Bool.not_eq_false _ |>.mp hbracket)] at hc
    cases hc
  have hticks : ∀ c, decide (c = '\x60') = true → isBracket c = false := by
    intro c hc
    rw [of_decide_eq_true hc]
    rfl
  have htrim : (trim (String.ofList s)).toList = strip isWhitespace s := by
    rw [toList_trim, String.toList_ofList]
  have hstripped := h.strip hspace hcore
  have hopened := hstripped.dropPrefixes not_isBracket_fence hcore
    (n := (strip isWhitespace s).length)
  have htrimmed : StandsIn core (trimTicks _) := hopened.strip hticks hcore
  obtain ⟨i, j, hfirst, hlast, hij, hslice⟩ := slice_of_standsIn hcore htrimmed
  rw [extractJson, htrim]
  simp only [hfirst, hlast, if_neg (Nat.not_le.mpr hij), hslice]
  rw [trim, String.toList_ofList]
  exact congrArg String.ofList (strip_bracketed (fun _ => not_isWhitespace_of_isBracket) hcore)

end Prose

section Replies

theorem infix_of_strip (p : Char → Bool) (s : List Char) : strip p s <:+: s :=
  (List.rdropWhile_prefix p _).isInfix.trans (List.dropWhile_suffix p).isInfix

theorem dropPrefixes_suffix (start : List Char) (n : ℕ) (s : List Char) :
    dropPrefixes start n s <:+ s := by
  induction n generalizing s with
  | zero => exact List.suffix_refl s
  | succ n ih =>
    rw [dropPrefixes]
    split
    · exact (ih _).trans (List.drop_suffix _ s)
    · exact List.suffix_refl s

theorem extractJson_infix (text : List Char) :
    (extractJson (String.ofList text)).toList <:+: text := by
  have htrim : (trim (String.ofList text)).toList = strip isWhitespace text := by
    rw [toList_trim, String.toList_ofList]
  have htrimmed : trimTicks (dropPrefixes "\x60\x60\x60json".toList
      (strip isWhitespace text).length (strip isWhitespace text)) <:+: text :=
    (infix_of_strip _ _).trans ((dropPrefixes_suffix _ _ _).isInfix.trans (infix_of_strip _ _))
  rw [extractJson, htrim]
  generalize trimTicks (dropPrefixes _ (strip isWhitespace text).length
    (strip isWhitespace text)) = s at htrimmed
  split
  · next i j hi hj =>
    split
    · rwa [String.toList_ofList]
    · rw [toList_trim, String.toList_ofList]
      exact (infix_of_strip _ _).trans ((List.take_prefix _ _).isInfix.trans
        ((List.drop_suffix i s).isInfix.trans htrimmed))
  · rwa [String.toList_ofList]

def IsContainerText (s : List Char) : Prop :=
  s.head?.any Ecma.Json.isJsonSpace = false ∧ s.getLast?.any Ecma.Json.isJsonSpace = false ∧
    ((∃ items, Ecma.Json.parse id s = some (.array items)) ∨
      ∃ members, Ecma.Json.parse id s = some (.object members))

theorem bracketed_of_ends {s : List Char} {b d : Char} (hfirst : s.head? = some b)
    (hlast : s.getLast? = some d) (hb : isOpening b = true) (hd : isClosing d = true) :
    Bracketed s := by
  cases s with
  | nil => cases hfirst
  | cons c s =>
    obtain rfl : c = b := Option.some.inj hfirst
    rcases List.eq_nil_or_concat s with rfl | ⟨m, x, rfl⟩
    · obtain rfl : c = d := Option.some.inj hlast
      simp only [isOpening, isClosing, Bool.or_eq_true, decide_eq_true_eq] at hb hd
      rcases hb with rfl | rfl <;> simp at hd
    · have hx : (c :: (m ++ [x])).getLast? = some x := by
        rw [← List.cons_append, List.getLast?_concat]
      rw [List.concat_eq_append, hx] at hlast
      obtain rfl : x = d := Option.some.inj hlast
      exact ⟨c, m, x, by rw [List.concat_eq_append], hb, hd⟩

theorem bracketed_of_container {s : List Char} (h : IsContainerText s) : Bracketed s := by
  obtain ⟨hfirst, hlast, ⟨items, hparse⟩ | ⟨members, hparse⟩⟩ := h
  · obtain ⟨hopen, hclose⟩ := (Ecma.Json.ends_of_parse hparse hfirst hlast).1 items rfl
    exact bracketed_of_ends hopen hclose rfl rfl
  · obtain ⟨hopen, hclose⟩ := (Ecma.Json.ends_of_parse hparse hfirst hlast).2 members rfl
    exact bracketed_of_ends hopen hclose rfl rfl

/-- JSON is cut out of the prose around it, and no position is inside of a character. -/
theorem json_of_reply :
    (∀ before core behind : List Char, IsContainerText core →
      (∀ c ∈ before, isBracket c = false) → (∀ c ∈ behind, isBracket c = false) →
      extractJsonBytes (before ++ core ++ behind) = some core) ∧
    ∀ text, ∃ t, extractJsonBytes text = some t ∧ t <:+: text := by
  constructor
  · intro before core behind hcore hbefore hbehind
    rw [extractJsonBytes_eq, extractJson_of_standsIn (bracketed_of_container hcore)
      ⟨before, behind, List.append_assoc _ _ _, hbefore, hbehind⟩, String.toList_ofList]
  · intro text
    exact ⟨_, extractJsonBytes_eq text, extractJson_infix text⟩

theorem json_of_reply_in_prose :
    extractJsonBytes ("Here they are: ".toList ++ "[true,null]".toList ++ " Done.".toList) =
      some "[true,null]".toList := by
  have hplain : ∀ s : List Char, s.all (fun c => !isBracket c) = true →
      ∀ c ∈ s, isBracket c = false := fun s h c hc => by
    simpa using List.all_eq_true.mp h c hc
  exact json_of_reply.1 _ "[true,null]".toList _
    ⟨by decide, by decide, .inl ⟨[.boolean true, .null], by rfl⟩⟩ (hplain _ (by decide))
    (hplain _ (by decide))

end Replies

end Cinder.Papers
