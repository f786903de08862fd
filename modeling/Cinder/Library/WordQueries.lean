import Cinder.Library.LibraryReads
import Cinder.Streams.DecimalTexts
import Cinder.Streams.WordRuns
import Mathlib
set_option autoImplicit false

/-!
What a search finds in a note. The index cuts the plaintext into its runs of letters and
digits; the query of `to_fts_query` asks for each word with its other characters left out.
-/

namespace Cinder.Library
open Cinder.Host Cinder.Streams

/-! The part of the query syntax of FTS5 that `to_fts_query` writes. -/

structure Phrase where
  text : List Char
  starred : Bool
  deriving DecidableEq, Repr

/-- What follows an opening quote: a doubled quote stands for one, a single quote ends the text. -/
def readQuoted : List Char → Option (List Char × List Char)
  | [] => none
  | '"' :: '"' :: rest => (readQuoted rest).map fun t => ('"' :: t.1, t.2)
  | '"' :: rest => some ([], rest)
  | c :: rest => (readQuoted rest).map fun t => (c :: t.1, t.2)

def readPhrase (s : List Char) : Option (Phrase × List Char) := do
  let quoted ← stripPrefix ['"'] s
  let (text, rest) ← readQuoted quoted
  match stripPrefix ['*'] rest with
  | some rest => some (⟨text, true⟩, rest)
  | none => some (⟨text, false⟩, rest)

def readPhrases : Nat → List Char → Option (List Phrase)
  | 0, _ => none
  | fuel + 1, s => do
    let (phrase, rest) ← readPhrase s
    if rest = [] then some [phrase]
    else
      let rest ← stripPrefix " AND ".toList rest
      let phrases ← readPhrases fuel rest
      some (phrase :: phrases)

/-- Each phrase takes at least one character, so the fuel lasts. -/
def parseFts (expr : String) : Option (List Phrase) :=
  readPhrases expr.toList.length expr.toList

/-- `alnum` is the text's letters and digits, as `char::is_alphanumeric` has them, and
`fold` leaves the case and the diacritics of a letter out. -/
structure Unicode61 where
  alnum : Char → Bool
  fold : Char → Char
  ascii : ∀ c : Char, c.isAlphanum = true → alnum c = true
  space : ∀ c, isWhitespace c = true → alnum c = false
  quote : alnum '"' = false

variable (u : Unicode61)

def Unicode61.tokens (text : List Char) : List (List Char) :=
  (runs u.alnum text).map fun r => r.map u.fold

/-- The tokens of a phrase stand one after the other; the last of a starred one may go on. -/
def matchesHere (starred : Bool) : List (List Char) → List (List Char) → Bool
  | [], _ => true
  | _, [] => false
  | [t], d :: _ => if starred then t.isPrefixOf d else t = d
  | t :: asked, d :: rest => t = d && matchesHere starred asked rest

def Unicode61.hasPhrase (plaintext : String) (phrase : Phrase) : Bool :=
  let asked := u.tokens phrase.text
  !asked.isEmpty && (u.tokens plaintext.toList).tails.any (matchesHere phrase.starred asked)

def Unicode61.found (query : List Phrase) (plaintext : String) : Bool :=
  query.all (u.hasPhrase plaintext)

theorem matchesHere_tails (t : List Char) (tokens : List (List Char)) :
    tokens.tails.any (matchesHere true [t]) = true ↔ ∃ d ∈ tokens, t <+: d := by
  induction tokens with
  | nil => simp [matchesHere]
  | cons d rest ih => simp [matchesHere, ih, List.isPrefixOf_iff_prefix]

/-- A starred word of letters and digits is looked for at the front of the note's runs. -/
theorem hasPhrase_starred {t : List Char} (hne : t ≠ []) (ht : ∀ c ∈ t, u.alnum c = true)
    (plaintext : String) : u.hasPhrase plaintext ⟨t, true⟩ = true ↔
      ∃ r ∈ runs u.alnum plaintext.toList, t.map u.fold <+: r.map u.fold := by
  have hasked : u.tokens t = [t.map u.fold] := by
    rw [Unicode61.tokens, runs_of_forall hne ht]
    rfl
  have hfound : u.hasPhrase plaintext ⟨t, true⟩ =
      (u.tokens plaintext.toList).tails.any (matchesHere true [t.map u.fold]) := by
    rw [Unicode61.hasPhrase, hasked]
    rfl
  rw [hfound, matchesHere_tails]
  constructor
  · rintro ⟨d, hmem, hd⟩
    obtain ⟨r, hr, rfl⟩ := List.mem_map.mp hmem
    exact ⟨r, hr, hd⟩
  · rintro ⟨r, hr, hd⟩
    exact ⟨_, List.mem_map_of_mem hr, hd⟩

/-! What `to_fts_query` writes is read back. -/

def quotedTerm (t : List Char) : List Char := '"' :: (t ++ ['"', '*'])

theorem readQuoted_append {t : List Char} (ht : ∀ c ∈ t, c ≠ '"') (rest : List Char) :
    readQuoted (t ++ '"' :: '*' :: rest) = some (t, '*' :: rest) := by
  induction t with
  | nil => rfl
  | cons c t ih =>
    have hc := ht c List.mem_cons_self
    rw [List.cons_append, readQuoted.eq_def]
    split
    · next h => cases h
    · next h => exact absurd (List.cons.inj h).1 hc
    · next h => exact absurd (List.cons.inj h).1 hc
    · next h =>
      obtain ⟨rfl, rfl⟩ := List.cons.inj h
      rw [ih fun x hx => ht x (List.mem_cons_of_mem _ hx)]
      rfl

theorem readPhrase_quotedTerm {t : List Char} (ht : ∀ c ∈ t, c ≠ '"') (rest : List Char) :
    readPhrase (quotedTerm t ++ rest) = some (⟨t, true⟩, rest) := by
  have hquoted : stripPrefix ['"'] (quotedTerm t ++ rest) = some (t ++ '"' :: '*' :: rest) := by
    rw [quotedTerm, ← stripPrefix_append ['"'] (t ++ '"' :: '*' :: rest)]
    simp
  have hstar : stripPrefix ['*'] ('*' :: rest) = some rest := stripPrefix_append ['*'] rest
  rw [readPhrase, hquoted]
  simp [readQuoted_append ht, hstar]

theorem readPhrases_last {t : List Char} (ht : ∀ c ∈ t, c ≠ '"') (fuel : Nat) :
    readPhrases (fuel + 1) (quotedTerm t) = some [⟨t, true⟩] := by
  have hread := readPhrase_quotedTerm ht []
  rw [List.append_nil] at hread
  simp [readPhrases, hread]

theorem readPhrases_and {t : List Char} (ht : ∀ c ∈ t, c ≠ '"') {fuel : Nat} {s : List Char}
    {phrases : List Phrase} (hrest : readPhrases fuel s = some phrases) :
    readPhrases (fuel + 1) (quotedTerm t ++ (" AND ".toList ++ s)) =
      some (⟨t, true⟩ :: phrases) := by
  have hmore : " AND ".toList ++ s ≠ [] := by simp
  simp only [readPhrases, readPhrase_quotedTerm ht, Option.bind_eq_bind, Option.bind_some, hmore,
    if_false, stripPrefix_append, hrest]

theorem readPhrases_terms {terms : List (List Char)} (hne : terms ≠ [])
    (ht : ∀ t ∈ terms, ∀ c ∈ t, c ≠ '"') {fuel : Nat} (hfuel : terms.length ≤ fuel) :
    readPhrases fuel (" AND ".toList.intercalate (terms.map quotedTerm)) =
      some (terms.map fun t => ⟨t, true⟩) := by
  induction terms generalizing fuel with
  | nil => exact absurd rfl hne
  | cons t terms ih =>
    have htext := ht t List.mem_cons_self
    obtain ⟨fuel, rfl⟩ : ∃ n, fuel = n + 1 := Nat.exists_eq_add_one_of_ne_zero (by
      rintro rfl
      cases hfuel)
    cases terms with
    | nil =>
      rw [List.map_singleton, List.intercalate_singleton]
      exact readPhrases_last htext fuel
    | cons t' terms =>
      have hrest := ih (List.cons_ne_nil _ _) (fun x hx => ht x (List.mem_cons_of_mem _ hx))
        (Nat.le_of_succ_le_succ hfuel)
      rw [List.map_cons, List.intercalate_cons_of_ne_nil (by simp), List.append_assoc]
      exact readPhrases_and htext hrest

theorem length_le_intercalate (sep : List Char) (terms : List (List Char)) :
    terms.length ≤ (sep.intercalate (terms.map quotedTerm)).length := by
  induction terms with
  | nil => exact Nat.le_refl _
  | cons t terms ih =>
    cases terms with
    | nil => simp [quotedTerm]
    | cons t' terms =>
      rw [List.map_cons, List.intercalate_cons_of_ne_nil (by simp)]
      simp only [quotedTerm, List.length_append, List.length_cons] at ih ⊢
      omega

def terms (raw : String) : List (List Char) :=
  ((raw.toList.splitOnP isWhitespace).map fun word => word.filter u.alnum).filter (· ≠ [])

theorem mem_terms {raw : String} {t : List Char} (h : t ∈ terms u raw) :
    t ≠ [] ∧ ∀ c ∈ t, u.alnum c = true := by
  obtain ⟨hmem, hne⟩ := List.mem_filter.mp h
  obtain ⟨word, -, rfl⟩ := List.mem_map.mp hmem
  exact ⟨by simpa using hne, fun c hc => (List.mem_filter.mp hc).2⟩

theorem toFtsQuery_eq (raw : String) : toFtsQuery u.alnum raw =
    if terms u raw = [] then none
    else some (String.intercalate " AND "
      ((terms u raw).map fun t => String.ofList (quotedTerm t))) := by
  have hterm : ∀ t, "\"" ++ String.ofList t ++ "\"*" = String.ofList (quotedTerm t) := by
    intro t
    rw [← String.toList_inj]
    simp [quotedTerm]
  simp only [toFtsQuery, hterm, List.map_eq_nil_iff]
  rfl

theorem parse_toFtsQuery {raw expr : String} (h : toFtsQuery u.alnum raw = some expr) :
    parseFts expr = some ((terms u raw).map fun t => ⟨t, true⟩) := by
  rw [toFtsQuery_eq] at h
  split at h
  · cases h
  · next hne =>
    have hquote : ∀ t ∈ terms u raw, ∀ c ∈ t, c ≠ '"' := by
      rintro t ht c hc rfl
      have hc := (mem_terms u ht).2 _ hc
      rw [u.quote] at hc
      cases hc
    have hchars : expr.toList = " AND ".toList.intercalate ((terms u raw).map quotedTerm) := by
      rw [← Option.some.inj h, String.toList_intercalate, List.map_map]
      congr 1
      exact List.map_congr_left fun t _ => String.toList_ofList
    rw [parseFts, hchars]
    exact readPhrases_terms hne hquote (length_le_intercalate _ _)

def words (plaintext : String) : List (List Char) :=
  runs (fun c => !isWhitespace c) plaintext.toList

def Unbroken (w : List Char) : Prop := runs u.alnum w = [w.filter u.alnum]

instance (w : List Char) : Decidable (Unbroken u w) := inferInstanceAs (Decidable (_ = _))

theorem terms_word {plaintext : String} {w : List Char} (hw : w ∈ words plaintext)
    (hne : w.filter u.alnum ≠ []) : terms u (String.ofList w) = [w.filter u.alnum] := by
  rw [terms, String.toList_ofList, List.splitOnP_eq_singleton fun c hc => by
    simpa using (of_mem_runs hw c hc).2]
  simp [hne]

theorem run_of_word {plaintext : String} {w : List Char} (hw : w ∈ words plaintext)
    (hne : w.filter u.alnum ≠ []) :
    (∃ r ∈ runs u.alnum plaintext.toList, (w.filter u.alnum).map u.fold <+: r.map u.fold) ↔
      Unbroken u w ∨ ∃ v ∈ words plaintext, v ≠ w ∧ ∃ r ∈ runs u.alnum v,
        (w.filter u.alnum).map u.fold <+: r.map u.fold := by
  have hspace : ∀ c, u.alnum c = true → (!isWhitespace c) = true := by
    intro c hc
    cases hwhite : isWhitespace c with
    | false => rfl
    | true => rw [u.space c hwhite] at hc; cases hc
  constructor
  · rintro ⟨r, hr, hprefix⟩
    obtain ⟨v, hv, hr⟩ := (mem_runs_iff hspace).mp hr
    by_cases heq : v = w
    · subst heq
      have hlen := hprefix.length_le
      rw [List.length_map, List.length_map] at hlen
      exact Or.inl (runs_eq_singleton hr hlen)
    · exact Or.inr ⟨v, hv, heq, r, hr, hprefix⟩
  · rintro (hunbroken | ⟨v, hv, -, r, hr, hprefix⟩)
    · have hr : w.filter u.alnum ∈ runs u.alnum w := by
        rw [hunbroken]
        exact List.mem_singleton_self _
      exact ⟨_, (mem_runs_iff hspace).mpr ⟨w, hw, hr⟩, List.prefix_refl _⟩
    · exact ⟨r, (mem_runs_iff hspace).mpr ⟨v, hv, hr⟩, hprefix⟩

def FindsByWord (w : List Char) (plaintext : String) : Prop :=
  ∃ expr query, toFtsQuery u.alnum (String.ofList w) = some expr ∧
    parseFts expr = some query ∧ u.found query plaintext = true

/-- The query of a word of the note is always well formed. It finds the note exactly when
the word's letters and digits stand together, or another word happens to have a run of them
that begins like the word without its other characters. -/
theorem note_found_by_word_iff {plaintext : String} {w : List Char} (hw : w ∈ words plaintext)
    (halnum : ∃ c ∈ w, c.isAlphanum = true) :
    ((toFtsQuery u.alnum (String.ofList w)).bind parseFts).isSome = true ∧
      (FindsByWord u w plaintext ↔
        Unbroken u w ∨ ∃ v ∈ words plaintext, v ≠ w ∧ ∃ r ∈ runs u.alnum v,
          (w.filter u.alnum).map u.fold <+: r.map u.fold) := by
  obtain ⟨c, hc, hascii⟩ := halnum
  have hne : w.filter u.alnum ≠ [] :=
    List.ne_nil_of_mem (List.mem_filter.mpr ⟨hc, u.ascii c hascii⟩)
  have hterms := terms_word u hw hne
  have hexpr := toFtsQuery_eq u (String.ofList w)
  rw [if_neg (by simp [hterms])] at hexpr
  have hparse := parse_toFtsQuery u hexpr
  refine ⟨by rw [hexpr, Option.bind_some, hparse]; rfl, ?_⟩
  have hphrase := hasPhrase_starred u hne (fun c hc => (List.mem_filter.mp hc).2) plaintext
  have hfound : u.found ((terms u (String.ofList w)).map fun t => ⟨t, true⟩) plaintext =
      u.hasPhrase plaintext ⟨w.filter u.alnum, true⟩ := by
    rw [hterms, List.map_singleton, Unicode61.found, List.all_cons, List.all_nil, Bool.and_true]
  rw [← run_of_word u hw hne, ← hphrase, ← hfound]
  constructor
  · rintro ⟨expr, query, hexpr', hparse', hquery⟩
    rw [hexpr] at hexpr'
    cases hexpr'
    rw [hparse] at hparse'
    cases hparse'
    exact hquery
  · intro hquery
    exact ⟨_, _, hexpr, hparse, hquery⟩

theorem not_whitespace_of_isAlphanum {c : Char} (h : c.isAlphanum = true) :
    isWhitespace c = false := by
  have hrange := toNat_of_isAlphanum h
  simp [isWhitespace]
  omega

def asciiTokenizer : Unicode61 where
  alnum := Char.isAlphanum
  fold := Char.toLower
  ascii := fun _ h => h
  space := fun c hc => Bool.eq_false_iff.mpr fun h => by
    rw [not_whitespace_of_isAlphanum h] at hc
    cases hc
  quote := by decide

theorem note_found_by_word_iff_whole :
    FindsByWord asciiTokenizer "bends.".toList "White light bends." :=
  have hword : "bends.".toList ∈ words "White light bends." := by decide
  (note_found_by_word_iff asciiTokenizer hword ⟨'b', by decide, by decide⟩).2.mpr
    (Or.inl (by decide))

/-- The query has the letters of `don't` in one word, and the index has them in two. -/
theorem word_with_apostrophe_not_found :
    "don't".toList ∈ words "Lenses don't glow." ∧ (∃ c ∈ "don't".toList, c.isAlphanum = true) ∧
      toFtsQuery asciiTokenizer.alnum "don't" = some "\"dont\"*" ∧
      ¬FindsByWord asciiTokenizer "don't".toList "Lenses don't glow." := by
  have hexpr : toFtsQuery asciiTokenizer.alnum "don't" = some "\"dont\"*" := by decide
  have hparse : parseFts "\"dont\"*" = some [⟨"dont".toList, true⟩] := by decide
  refine ⟨by decide, ⟨'d', by decide, by decide⟩, hexpr, ?_⟩
  rintro ⟨expr, query, hexpr', hparse', hfound⟩
  rw [String.ofList_toList, hexpr] at hexpr'
  cases hexpr'
  rw [hparse] at hparse'
  cases hparse'
  revert hfound
  decide

end Cinder.Library
