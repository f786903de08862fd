import Cinder.Streams.DecimalTexts
import Mathlib.Data.List.Chain
set_option autoImplicit false

/-!
Documents of nested elements as text: tags with attributes in quotation marks, and texts in which
characters that mean something else are written as references.
-/

namespace Cinder.Streams

inductive Markup where
  | declaration (content : List Char)
  | openTag (name : List Char) (attributes : List (List Char × List Char))
  | closeTag (name : List Char)
  | text (s : List Char)
  deriving DecidableEq, Repr

namespace Markup

def attributeText (a : List Char × List Char) : List Char :=
  ' ' :: a.1 ++ '=' :: '"' :: a.2 ++ ['"']

def write : Markup → List Char
  | declaration content => '<' :: '!' :: content ++ ['>']
  | openTag name attributes => '<' :: name ++ attributes.flatMap attributeText ++ ['>']
  | closeTag name => '<' :: '/' :: name ++ ['>']
  | text s => s

def isText : Markup → Bool
  | text _ => true
  | _ => false

/-- What the reader can tell from what stands around it. -/
def Valid : Markup → Prop
  | declaration content => '>' ∉ content
  | openTag name attributes => name ≠ [] ∧ (∀ c ∈ name, c.isAlphanum = true) ∧
      ∀ a ∈ attributes, '=' ∉ a.1 ∧ '"' ∉ a.2
  | closeTag name => '>' ∉ name
  | text s => s ≠ [] ∧ '<' ∉ s

section Reading

def readAttributes : ℕ → List Char → Option (List (List Char × List Char) × List Char)
  | 0, _ => none
  | fuel+1, s =>
    match s with
    | '>' :: rest => some ([], rest)
    | ' ' :: rest =>
      match splitOnce '=' rest with
      | some (name, '"' :: rest) =>
        match splitOnce '"' rest with
        | some (value, rest) => (readAttributes fuel rest).map fun r => ((name, value) :: r.1, r.2)
        | none => none
      | _ => none
    | _ => none

/-- What stands behind an angle bracket. -/
def readTag (s : List Char) : Option (Markup × List Char) :=
  match s with
  | '!' :: rest => (splitOnce '>' rest).map fun r => (declaration r.1, r.2)
  | '/' :: rest => (splitOnce '>' rest).map fun r => (closeTag r.1, r.2)
  | _ =>
    let name := s.takeWhile (·.isAlphanum)
    if name = [] then none
    else (readAttributes s.length (s.dropWhile (·.isAlphanum))).map fun r =>
      (openTag name r.1, r.2)

def tokenizeFrom : ℕ → List Char → Option (List Markup)
  | _, [] => some []
  | 0, _ => none
  | fuel+1, c :: s =>
    if c = '<' then
      match readTag s with
      | some (m, rest) => (tokenizeFrom fuel rest).map (m :: ·)
      | none => none
    else
      (tokenizeFrom fuel ((c :: s).dropWhile (· ≠ '<'))).map
        (text ((c :: s).takeWhile (· ≠ '<')) :: ·)

def tokenize (s : List Char) : Option (List Markup) := tokenizeFrom s.length s

end Reading

section RoundTrip
variable {m : Markup} {ms : List Markup} {rest : List Char}
  {attributes : List (List Char × List Char)}

theorem length_le_attributes (attributes : List (List Char × List Char)) :
    attributes.length ≤ (attributes.flatMap attributeText).length := by
  induction attributes with
  | nil => simp
  | cons a as ih =>
    simp only [List.flatMap_cons, List.length_append, attributeText, List.length_cons] at *
    omega

theorem readAttributes_write {fuel : ℕ} (h : ∀ a ∈ attributes, '=' ∉ a.1 ∧ '"' ∉ a.2)
    (hfuel : attributes.length < fuel) :
    readAttributes fuel (attributes.flatMap attributeText ++ '>' :: rest) =
      some (attributes, rest) := by
  induction attributes generalizing fuel with
  | nil =>
    cases fuel with
    | zero => simp at hfuel
    | succ fuel => simp [readAttributes]
  | cons a as ih =>
    cases fuel with
    | zero => simp at hfuel
    | succ fuel =>
      obtain ⟨ha, has⟩ := List.forall_mem_cons.mp h
      have hmore : readAttributes fuel (as.flatMap attributeText ++ '>' :: rest) =
          some (as, rest) := ih has (by simpa using hfuel)
      simp only [List.flatMap_cons, attributeText, List.cons_append, List.append_assoc,
        List.nil_append, readAttributes]
      rw [splitOnce_append ha.1]
      simp only
      rw [splitOnce_append ha.2]
      simp only [hmore, Option.map_some]

theorem takeWhile_name {name : List Char} (hname : ∀ c ∈ name, c.isAlphanum = true) {c : Char}
    (hc : c.isAlphanum = false) (t : List Char) :
    (name ++ c :: t).takeWhile (·.isAlphanum) = name ∧
      (name ++ c :: t).dropWhile (·.isAlphanum) = c :: t := by
  induction name with
  | nil => simp [hc]
  | cons x xs ih =>
    obtain ⟨hx, hxs⟩ := List.forall_mem_cons.mp hname
    simp [hx, ih hxs]

theorem attributes_head (attributes : List (List Char × List Char)) (rest : List Char) :
    ∃ c t, attributes.flatMap attributeText ++ '>' :: rest = c :: t ∧ c.isAlphanum = false := by
  cases attributes with
  | nil => exact ⟨'>', rest, rfl, by decide⟩
  | cons a as => exact ⟨' ', _, rfl, by decide⟩

theorem readTag_openTag {name : List Char} (h : (openTag name attributes).Valid) :
    readTag (name ++ attributes.flatMap attributeText ++ '>' :: rest) =
      some (openTag name attributes, rest) := by
  obtain ⟨hne, hname, hattributes⟩ := h
  obtain ⟨c, t, ht, hc⟩ := attributes_head attributes rest
  obtain ⟨htake, hdrop⟩ := takeWhile_name hname hc t
  have hlength := length_le_attributes attributes
  have hread : readAttributes (name ++ attributes.flatMap attributeText ++ '>' :: rest).length
      (attributes.flatMap attributeText ++ '>' :: rest) = some (attributes, rest) :=
    readAttributes_write hattributes (by simp only [List.length_append, List.length_cons]; omega)
  rw [List.append_assoc] at hread ⊢
  rw [ht] at hread ⊢
  rw [readTag]
  · simp only [htake, hdrop, if_neg hne, hread, Option.map_some]
  all_goals
    intro rest' heq
    cases name with
    | nil => simp at hne
    | cons x xs =>
      obtain ⟨hx, -⟩ := List.forall_mem_cons.mp hname
      simp only [List.cons_append, List.cons.injEq] at heq
      rw [heq.1] at hx
      cases hx

def Apart (ms : List Markup) : Prop := ms.IsChain fun m n => ¬(m.isText = true ∧ n.isText = true)

theorem tokenizeFrom_write {fuel : ℕ} (hm : m.Valid)
    (hrest : m.isText = true → rest = [] ∨ rest.head? = some '<') :
    tokenizeFrom (fuel+1) (m.write ++ rest) = (tokenizeFrom fuel rest).map (m :: ·) := by
  cases m with
  | declaration content =>
    simp only [write, List.cons_append, List.append_assoc, List.nil_append, tokenizeFrom, readTag,
      if_true]
    rw [splitOnce_append hm]
    rfl
  | openTag name attributes =>
    have hread : readTag (name ++ attributes.flatMap attributeText ++ '>' :: rest) =
        some (openTag name attributes, rest) := readTag_openTag hm
    simp only [write, List.cons_append, List.append_assoc, List.nil_append, tokenizeFrom,
      if_true] at hread ⊢
    rw [hread]
  | closeTag name =>
    simp only [write, List.cons_append, List.append_assoc, List.nil_append, tokenizeFrom, readTag,
      if_true]
    rw [splitOnce_append hm]
    rfl
  | text s =>
    obtain ⟨hne, hmem⟩ := hm
    have hall : ∀ c ∈ s, (decide (c ≠ '<')) = true := by
      intro c hc
      simpa using fun heq : c = '<' => hmem (heq ▸ hc)
    have hstop : rest.takeWhile (· ≠ '<') = [] ∧ rest.dropWhile (· ≠ '<') = rest := by
      cases rest with
      | nil => simp
      | cons c rest =>
        have hc : c = '<' := by simpa using hrest rfl
        simp [hc]
    have htake : (s ++ rest).takeWhile (· ≠ '<') = s := by
      rw [List.takeWhile_append_of_pos hall, hstop.1, List.append_nil]
    have hdrop : (s ++ rest).dropWhile (· ≠ '<') = rest := by
      rw [List.dropWhile_append_of_pos hall, hstop.2]
    cases s with
    | nil => simp at hne
    | cons c s =>
      have hc : c ≠ '<' := by simpa using hall c (by simp)
      rw [write, List.cons_append, tokenizeFrom, if_neg hc, ← List.cons_append, htake, hdrop]

theorem write_ne_nil (hm : m.Valid) : m.write ≠ [] := by
  cases m with
  | text s => exact hm.1
  | _ => simp [write]

theorem write_head (h : m.isText = false) (rest : List Char) :
    (m.write ++ rest).head? = some '<' := by
  cases m with
  | text s => cases h
  | _ => simp [write]

theorem tokenizeFrom_flatMap {fuel : ℕ} (hvalid : ∀ m ∈ ms, m.Valid) (hapart : Apart ms)
    (hfuel : ms.length ≤ fuel) : tokenizeFrom fuel (ms.flatMap write) = some ms := by
  induction ms generalizing fuel with
  | nil => simp [tokenizeFrom]
  | cons m ms ih =>
    obtain ⟨hm, hms⟩ := List.forall_mem_cons.mp hvalid
    cases fuel with
    | zero => simp at hfuel
    | succ fuel =>
      have hmore : tokenizeFrom fuel (ms.flatMap write) = some ms :=
        ih hms hapart.tail (by simpa using hfuel)
      rw [List.flatMap_cons, tokenizeFrom_write hm, hmore, Option.map_some]
      intro htext
      cases ms with
      | nil => exact .inl rfl
      | cons n ms =>
        have hn : n.isText = false := by
          have hpair := (List.isChain_cons_cons.mp hapart).1
          simpa [htext] using hpair
        rw [List.flatMap_cons]
        exact .inr (write_head hn _)

theorem length_le_write (hvalid : ∀ m ∈ ms, m.Valid) : ms.length ≤ (ms.flatMap write).length := by
  induction ms with
  | nil => simp
  | cons m ms ih =>
    obtain ⟨hm, hms⟩ := List.forall_mem_cons.mp hvalid
    have hmore := ih hms
    have hpos := List.length_pos_iff.mpr (write_ne_nil hm)
    simp only [List.flatMap_cons, List.length_append, List.length_cons]
    omega

theorem tokenize_write (hvalid : ∀ m ∈ ms, m.Valid) (hapart : Apart ms) :
    tokenize (ms.flatMap write) = some ms :=
  tokenizeFrom_flatMap hvalid hapart (length_le_write hvalid)

end RoundTrip

end Markup

section References

/-- A character that means something in markup, as a reference. -/
def reference (c : Char) : List Char :=
  if c = '&' then "&amp;".toList
  else if c = '<' then "&lt;".toList
  else if c = '>' then "&gt;".toList
  else if c = '"' then "&quot;".toList
  else [c]

/-- Another reference stays as it stands. -/
def readReferences : List Char → List Char
  | '&' :: 'a' :: 'm' :: 'p' :: ';' :: s => '&' :: readReferences s
  | '&' :: 'l' :: 't' :: ';' :: s => '<' :: readReferences s
  | '&' :: 'g' :: 't' :: ';' :: s => '>' :: readReferences s
  | '&' :: 'q' :: 'u' :: 'o' :: 't' :: ';' :: s => '"' :: readReferences s
  | c :: s => c :: readReferences s
  | [] => []

theorem readReferences_cons {c : Char} (hc : c ≠ '&') (s : List Char) :
    readReferences (c :: s) = c :: readReferences s := by
  rw [readReferences] <;> simp [hc]

theorem readReferences_append {p : List Char} (hp : '&' ∉ p) (s : List Char) :
    readReferences (p ++ s) = p ++ readReferences s := by
  induction p with
  | nil => rfl
  | cons c p ih =>
    simp only [List.mem_cons, not_or] at hp
    rw [List.cons_append, readReferences_cons (Ne.symm hp.1), ih hp.2, List.cons_append]

theorem readReferences_plain {p : List Char} (hp : '&' ∉ p) : readReferences p = p := by
  have h := readReferences_append hp []
  simpa [readReferences] using h

theorem readReferences_reference (s t : List Char) :
    readReferences (s.flatMap reference ++ t) = s ++ readReferences t := by
  induction s with
  | nil => rfl
  | cons c s ih =>
    rw [List.flatMap_cons, List.append_assoc, reference]
    split
    · next hc => simp [hc, readReferences, ih]
    · next hamp =>
      split
      · next hc => simp [hc, readReferences, ih]
      · split
        · next hc => simp [hc, readReferences, ih]
        · split
          · next hc => simp [hc, readReferences, ih]
          · rw [List.cons_append, List.nil_append, readReferences_cons hamp, ih, List.cons_append]

theorem not_mem_reference {c : Char} (hc : c = '<' ∨ c = '>' ∨ c = '"') (s : List Char) :
    c ∉ s.flatMap reference := by
  intro hmem
  obtain ⟨x, -, hx⟩ := List.mem_flatMap.mp hmem
  unfold reference at hx
  obtain rfl | rfl | rfl := hc <;> split_ifs at hx <;> simp_all [eq_comm]

end References

/-- An element with what is in it, or a text. -/
inductive Node where
  | declaration (content : List Char)
  | element (name : List Char) (attributes : List (List Char × List Char)) (children : List Node)
  | text (s : List Char)

namespace Node

def isVoid (name : List Char) : Bool :=
  ["br", "hr", "img", "input", "link", "meta"].any fun s => s.toList = name

mutual

def markup : Node → List Markup
  | declaration content => [.declaration content]
  | element name attributes children =>
    .openTag name attributes :: if isVoid name then [] else forest children ++ [.closeTag name]
  | text s => [.text s]

def forest : List Node → List Markup
  | [] => []
  | n :: ns => n.markup ++ forest ns

end

def write (ns : List Node) : List Char := (forest ns).flatMap Markup.write

def readNodes : ℕ → List Markup → Option (List Node × List Markup)
  | 0, _ => none
  | fuel+1, ms =>
    match ms with
    | [] => some ([], [])
    | .closeTag _ :: _ => some ([], ms)
    | .declaration content :: ms =>
      (readNodes fuel ms).map fun r => (declaration content :: r.1, r.2)
    | .text s :: ms => (readNodes fuel ms).map fun r => (text s :: r.1, r.2)
    | .openTag name attributes :: ms =>
      if isVoid name then
        (readNodes fuel ms).map fun r => (element name attributes [] :: r.1, r.2)
      else
        match readNodes fuel ms with
        | some (children, .closeTag last :: ms) =>
          if last = name then
            (readNodes fuel ms).map fun r => (element name attributes children :: r.1, r.2)
          else none
        | _ => none

def isText : Node → Bool
  | text _ => true
  | _ => false

mutual

/-- What can be read again: nothing is in an element without an end, and no text is empty or
follows another one. -/
def Proper : Node → Prop
  | declaration content => '>' ∉ content
  | element name attributes children => (Markup.openTag name attributes).Valid ∧
      (isVoid name = true → children = []) ∧ ProperForest children
  | text s => s ≠ [] ∧ '<' ∉ s

def ProperForest : List Node → Prop
  | [] => True
  | n :: ns => n.Proper ∧ (n.isText = true → ∀ m ∈ ns.head?, m.isText = false) ∧ ProperForest ns

end

mutual

/-- References are read in the texts and in the values of the attributes. -/
def decode : Node → Node
  | declaration content => declaration content
  | element name attributes children =>
    element name (attributes.map fun a => (a.1, readReferences a.2)) (decodeForest children)
  | text s => text (readReferences s)

def decodeForest : List Node → List Node
  | [] => []
  | n :: ns => n.decode :: decodeForest ns

end

/-- A whole document: every element is closed. -/
def readDocument (s : List Char) : Option (List Node) :=
  match Markup.tokenize s with
  | none => none
  | some ms =>
    match readNodes (ms.length+1) ms with
    | some (ns, []) => some (decodeForest ns)
    | _ => none

section RoundTrip

def Closes (rest : List Markup) : Prop := rest = [] ∨ ∃ name ms, rest = .closeTag name :: ms

theorem readNodes_closes {rest : List Markup} (h : Closes rest) (fuel : ℕ) :
    readNodes (fuel+1) rest = some ([], rest) := by
  obtain rfl | ⟨name, ms, rfl⟩ := h <;> rfl

theorem readNodes_forest : ∀ (ns : List Node) {fuel : ℕ} {rest : List Markup}, ProperForest ns →
    Closes rest → (forest ns).length < fuel → readNodes fuel (forest ns ++ rest) = some (ns, rest)
  | [], fuel, rest, _, hrest, hfuel => by
    cases fuel with
    | zero => simp at hfuel
    | succ fuel => simpa [forest] using readNodes_closes hrest fuel
  | n :: ns, fuel, rest, hproper, hrest, hfuel => by
    rw [ProperForest] at hproper
    obtain ⟨hn, -, hns⟩ := hproper
    cases fuel with
    | zero => simp at hfuel
    | succ fuel =>
      rw [forest, List.length_append] at hfuel
      cases n with
      | declaration content =>
        have hmore : readNodes fuel (forest ns ++ rest) = some (ns, rest) :=
          readNodes_forest ns hns hrest
            (by simp only [markup, List.length_cons, List.length_nil] at hfuel; omega)
        simp [forest, markup, readNodes, hmore]
      | text s =>
        have hmore : readNodes fuel (forest ns ++ rest) = some (ns, rest) :=
          readNodes_forest ns hns hrest
            (by simp only [markup, List.length_cons, List.length_nil] at hfuel; omega)
        simp [forest, markup, readNodes, hmore]
      | element name attributes children =>
        rw [Proper] at hn
        obtain ⟨-, hvoid, hchildren⟩ := hn
        simp only [markup, List.length_cons] at hfuel
        have hmore : readNodes fuel (forest ns ++ rest) = some (ns, rest) :=
          readNodes_forest ns hns hrest (by omega)
        by_cases hname : isVoid name = true
        · simp [forest, markup, readNodes, hname, hmore, hvoid hname]
        · simp only [if_neg hname, List.length_append, List.length_cons, List.length_nil] at hfuel
          have hinner : readNodes fuel (forest children ++ .closeTag name :: (forest ns ++ rest)) =
              some (children, .closeTag name :: (forest ns ++ rest)) :=
            readNodes_forest children hchildren (.inr ⟨_, _, rfl⟩) (by omega)
          simp [forest, markup, readNodes, hname, hmore, hinner]

theorem head_markup (n : Node) : ∃ m ms, n.markup = m :: ms ∧ m.isText = n.isText := by
  cases n with
  | declaration content => exact ⟨_, _, by rw [markup], rfl⟩
  | text s => exact ⟨_, _, by rw [markup], rfl⟩
  | element name attributes children => exact ⟨_, _, by rw [markup], rfl⟩

theorem last_markup (n : Node) : ∀ m ∈ n.markup.getLast?, m.isText = n.isText := by
  intro m hm
  cases n with
  | declaration content =>
    simp [markup] at hm
    rw [← hm]
    rfl
  | text s =>
    simp [markup] at hm
    rw [← hm]
    rfl
  | element name attributes children =>
    rw [markup] at hm
    split at hm
    · simp at hm
      rw [← hm]
      rfl
    · rw [← List.cons_append, List.getLast?_append_of_ne_nil _ (by simp)] at hm
      simp at hm
      rw [← hm]
      rfl

theorem head_forest (ns : List Node) : ∀ m ∈ (forest ns).head?, ∃ n ∈ ns.head?,
    m.isText = n.isText := by
  intro m hm
  cases ns with
  | nil => simp [forest] at hm
  | cons n ns =>
    obtain ⟨m', ms, hmarkup, htext⟩ := head_markup n
    rw [forest, hmarkup] at hm
    obtain rfl : m' = m := by simpa using hm
    exact ⟨n, rfl, htext⟩

mutual

theorem valid_markup : ∀ n : Node, n.Proper → (∀ m ∈ n.markup, m.Valid) ∧ Markup.Apart n.markup
  | declaration content, h => by
    rw [Proper] at h
    rw [markup]
    exact ⟨by simpa [Markup.Valid] using h, List.isChain_singleton _⟩
  | text s, h => by
    rw [Proper] at h
    rw [markup]
    exact ⟨by simpa [Markup.Valid] using h, List.isChain_singleton _⟩
  | element name attributes children, h => by
    rw [Proper] at h
    obtain ⟨hname, -, hchildren⟩ := h
    obtain ⟨hvalid, hapart⟩ := valid_forest children hchildren
    have hclose : (Markup.closeTag name).Valid := by
      intro hmem
      have halpha := hname.2.1 _ hmem
      cases halpha
    rw [markup]
    split
    · exact ⟨by simpa using hname, List.isChain_singleton _⟩
    · refine ⟨?_, ?_⟩
      · simp only [List.forall_mem_cons, List.forall_mem_append]
        exact ⟨hname, hvalid, hclose, by simp⟩
      · rw [Markup.Apart, List.isChain_cons, List.isChain_append]
        refine ⟨by simp [Markup.isText], hapart, List.isChain_singleton _, ?_⟩
        simp [Markup.isText]

theorem valid_forest : ∀ ns : List Node, ProperForest ns →
    (∀ m ∈ forest ns, m.Valid) ∧ Markup.Apart (forest ns)
  | [], _ => by
    rw [forest]
    exact ⟨by simp, List.isChain_nil⟩
  | n :: ns, h => by
    rw [ProperForest] at h
    obtain ⟨hn, htext, hns⟩ := h
    obtain ⟨hvalid, hapart⟩ := valid_markup n hn
    obtain ⟨hvalids, haparts⟩ := valid_forest ns hns
    rw [forest]
    refine ⟨List.forall_mem_append.mpr ⟨hvalid, hvalids⟩, ?_⟩
    rw [Markup.Apart, List.isChain_append]
    refine ⟨hapart, haparts, ?_⟩
    intro x hx y hy hboth
    obtain ⟨n', hn', heq⟩ := head_forest ns y hy
    have hlast := last_markup n x hx
    have hnext := htext (hlast ▸ hboth.1) n' hn'
    rw [← heq, hboth.2] at hnext
    cases hnext

end

/-- A document is read as the nodes that it was written from, with what their references stand
for. -/
theorem readDocument_write {ns : List Node} (h : ProperForest ns) :
    readDocument (write ns) = some (decodeForest ns) := by
  obtain ⟨hvalid, hapart⟩ := valid_forest ns h
  have hread : readNodes ((forest ns).length+1) (forest ns ++ []) = some (ns, []) :=
    readNodes_forest ns h (.inl rfl) (Nat.lt_succ_self _)
  rw [List.append_nil] at hread
  simp only [readDocument, write, Markup.tokenize_write hvalid hapart, hread]

end RoundTrip

section Lists
variable {name : List Char} (attributes : List (List Char × List Char)) (children ns : List Node)

@[simp] theorem write_nil : write [] = [] := rfl

@[simp] theorem write_declaration (content : List Char) : write (declaration content :: ns) =
    '<' :: '!' :: (content ++ '>' :: write ns) := by
  simp [write, forest, markup, Markup.write]

@[simp] theorem write_text (s : List Char) : write (text s :: ns) = s ++ write ns := by
  simp [write, forest, markup, Markup.write]

theorem write_element (h : isVoid name = false) :
    write (element name attributes children :: ns) =
      '<' :: (name ++ (attributes.flatMap Markup.attributeText ++
        '>' :: (write children ++ '<' :: '/' :: (name ++ '>' :: write ns)))) := by
  simp [write, forest, markup, h, Markup.write]

theorem write_void (h : isVoid name = true) : write (element name attributes children :: ns) =
    '<' :: (name ++ (attributes.flatMap Markup.attributeText ++ '>' :: write ns)) := by
  simp [write, forest, markup, h, Markup.write]

@[simp] theorem write_append (ms : List Node) : write (ms ++ ns) = write ms ++ write ns := by
  induction ms with
  | nil => rfl
  | cons m ms ih =>
    simp only [write, List.cons_append, forest, List.flatMap_append, List.append_assoc] at *
    rw [ih]

end Lists

end Node

end Cinder.Streams
