import Cinder.Worksheets.JsonRepair
import Cinder.Worksheets.PaperSpecs
set_option autoImplicit false

/-!
How a paper is read from a model's answer: the text between its braces, once as it is and once
repaired, and else the questions that are complete in it.
-/

namespace Cinder.Worksheets
open Cinder.Streams Cinder.Ecma

section Extraction

def answerFence : Pattern :=
  .seqs [.start, fence, .opt (.word "json".toList), .star true isWhiteSpace]

/-- The text from the first brace that opens to the last that closes, if that stands behind it. -/
def extractJsonObject (value : List Char) : Option (List Char) :=
  let opened := replaceFirst answerFence (fun _ => []) value
  let cleaned := strip isWhiteSpace (replaceFirst closingFence (fun _ => []) opened)
  let json := (cleaned.dropWhile (· ≠ '{')).rdropWhile (· ≠ '}')
  if json = [] then none else some json

def Encloses (core s : List Char) : Prop :=
  ∃ before behind, s = before ++ (core ++ behind) ∧ '{' ∉ before ∧ '}' ∉ behind

def Braced (core : List Char) : Prop := ∃ m, core = '{' :: (m ++ ['}'])

variable {core t u : List Char}

theorem Encloses.of_append_left (hcore : Braced core) (h : Encloses core (t ++ u))
    (ht : '{' ∉ t) : Encloses core u := by
  obtain ⟨m, rfl⟩ := hcore
  obtain ⟨before, behind, heq, hbefore, hbehind⟩ := h
  rcases List.append_eq_append_iff.mp heq with ⟨b, rfl, rfl⟩ | ⟨b, rfl, hb⟩
  · exact ⟨b, behind, rfl, fun hmem => hbefore (List.mem_append_right t hmem), hbehind⟩
  · cases b with
    | nil => exact ⟨[], behind, hb.symm, List.not_mem_nil, hbehind⟩
    | cons c b =>
      obtain ⟨rfl, -⟩ := List.cons.inj hb
      exact absurd (List.mem_append_right before List.mem_cons_self) ht

theorem Encloses.of_append_right (hcore : Braced core) (h : Encloses core (u ++ t))
    (ht : '}' ∉ t) : Encloses core u := by
  obtain ⟨m, rfl⟩ := hcore
  obtain ⟨before, behind, heq, hbefore, hbehind⟩ := h
  have hsplit : u ++ t = (before ++ '{' :: m) ++ '}' :: behind := by simpa using heq
  rcases List.append_eq_append_iff.mp hsplit with ⟨b, -, rfl⟩ | ⟨b, rfl, hb⟩
  · exact absurd (List.mem_append_right b List.mem_cons_self) ht
  · cases b with
    | nil =>
      rw [List.nil_append] at hb
      exact absurd (by rw [← hb]; exact List.mem_cons_self) ht
    | cons c b =>
      obtain ⟨rfl, rfl⟩ := List.cons.inj hb
      exact ⟨before, b, by simp, hbefore, fun hmem => hbehind (List.mem_append_left t hmem)⟩

theorem Encloses.strip (hcore : Braced core) (h : Encloses core t) :
    Encloses core (strip isWhiteSpace t) := by
  have hdropped : Encloses core (t.dropWhile isWhiteSpace) := by
    rw [← List.takeWhile_append_dropWhile (p := isWhiteSpace) (l := t)] at h
    refine h.of_append_left hcore fun hmem => ?_
    cases List.mem_takeWhile_imp hmem
  rw [← List.rdropWhile_append_rtakeWhile (p := isWhiteSpace) (l := t.dropWhile isWhiteSpace)]
    at hdropped
  refine hdropped.of_append_right hcore fun hmem => ?_
  cases List.mem_rtakeWhile_imp hmem

theorem Encloses.extracted (hcore : Braced core) (h : Encloses core t) :
    (t.dropWhile (· ≠ '{')).rdropWhile (· ≠ '}') = core := by
  obtain ⟨m, rfl⟩ := hcore
  obtain ⟨before, behind, rfl, hbefore, hbehind⟩ := h
  have hdrop : (before ++ ('{' :: (m ++ ['}']) ++ behind)).dropWhile (· ≠ '{') =
      '{' :: m ++ '}' :: behind := by
    have hpos : ∀ c ∈ before, decide (c ≠ '{') = true := by
      intro c hc
      simpa using ne_of_mem_of_not_mem hc hbefore
    rw [List.dropWhile_append_of_pos hpos]
    simp
  have hall : ∀ c ∈ behind, decide (c ≠ '}') = true := by
    intro c hc
    simpa using ne_of_mem_of_not_mem hc hbehind
  rw [hdrop, rdropWhile_append_cons _ (by simp), List.rdropWhile_eq_nil_iff.mpr hall]
  simp

theorem extractJsonObject_of_encloses (hcore : Braced core) (h : Encloses core t) :
    extractJsonObject t = some core := by
  have hopened : Encloses core (replaceFirst answerFence (fun _ => []) t) := by
    rcases replaceFirstFrom_cases answerFence (fun _ => []) [] t with hsame |
      ⟨b, w, r, g, ht, hreplaced, hway⟩
    · rwa [replaceFirst, hsame]
    · have hbrace := not_mem_of_avoids (by rfl : avoids '{' answerFence = true) hway
      obtain ⟨t₁, t₂, g₁, g₂, rfl, -, ⟨rfl, hb, -⟩, -⟩ := hway
      obtain rfl : b = [] := by simpa using hb
      rw [replaceFirst, hreplaced]
      rw [ht] at h
      exact h.of_append_left hcore hbrace
  have hclosed : Encloses core (replaceFirst closingFence (fun _ => [])
      (replaceFirst answerFence (fun _ => []) t)) := by
    generalize replaceFirst answerFence (fun _ => []) t = u at hopened
    rcases replaceFirstFrom_cases closingFence (fun _ => []) [] u with hsame |
      ⟨b, w, r, g, hu, hreplaced, hway⟩
    · rwa [replaceFirst, hsame]
    · have hbrace := not_mem_of_avoids (by rfl : avoids '}' closingFence = true) hway
      obtain ⟨t₁, t₂, g₁, g₂, rfl, -, -, t₃, t₄, g₃, g₄, rfl, -, -, t₅, t₆, g₅, g₆, rfl, -,
        ⟨-, hend, -⟩, rfl, -⟩ := hway
      have hrest : r.rest = [] := by simpa using hend
      rw [replaceFirst, hreplaced, hrest]
      rw [hu, hrest, List.append_nil] at hopened
      simpa using hopened.of_append_right hcore hbrace
  have hjson := (hclosed.strip hcore).extracted hcore
  rw [extractJsonObject]
  simp only [hjson]
  obtain ⟨m, rfl⟩ := hcore
  exact if_neg (List.cons_ne_nil _ _)

end Extraction

section Recovery
variable (round : Decimal → Decimal)

def isKeyQuote (c : Char) : Bool := c = '"' || c = '\''

def questionsStart : Pattern :=
  .seqs [.char isKeyQuote, .word "questions".toList, .char isKeyQuote, .star true isWhiteSpace,
    .char (· = ':'), .star true isWhiteSpace, .char (· = '[')]

/-- Where the scan for questions is. The fragment is the text since the object's start, last first,
and of use inside an object only. -/
structure QuestionScan where
  fragment : List Char
  depth : ℕ
  inString : Bool
  escaped : Bool
  questions : List Json

def readFragment (fragment : List Char) : Option Json :=
  (Json.parse round fragment).or (Json.parse round (repairCommonJsonIssues fragment))

namespace QuestionScan

def initial : QuestionScan := ⟨[], 0, false, false, []⟩

def step (q : QuestionScan) (character : Char) : QuestionScan :=
  let fragment := character :: q.fragment
  if q.inString then
    if q.escaped then { q with fragment, escaped := false }
    else if character = '\\' then { q with fragment, escaped := true }
    else { q with fragment, inString := character ≠ '"' }
  else if character = '"' then { q with fragment, inString := true }
  else if character = '{' then
    { q with fragment := if q.depth = 0 then [character] else fragment, depth := q.depth+1 }
  else if character = '}' && 0 < q.depth then
    if q.depth = 1 then
      { q with
        fragment := []
        depth := 0
        questions := q.questions ++ (readFragment round fragment.reverse).toList }
    else { q with fragment, depth := q.depth-1 }
  else { q with fragment }

def breaks (q : QuestionScan) (character : Char) : Bool :=
  !q.inString && character = ']' && q.depth = 0

def run (q : QuestionScan) : List Char → List Json
  | [] => q.questions
  | character :: s => if q.breaks character then q.questions else (q.step round character).run s

end QuestionScan

def recoverCompleteQuestions (value : List Char) : Option (Except String GeneratedPaper) :=
  (questionsStart.exec value).bind fun r =>
    let questions := QuestionScan.initial.run round r.rest
    if questions.isEmpty then none
    else some (normalizeGeneratedPaper
      (.object [("instructions".toList, .array []), ("questions".toList, .array questions)]))

end Recovery

section Responses
variable (round : Decimal → Decimal) (syntaxError : List Char → String)

def namesPaper : Pattern :=
  .oneOf [.literal "AI response".toList, .literal "questions".toList,
    .literal "paper specification".toList]

def recoverOrFail (value : List Char) : Except String GeneratedPaper :=
  (recoverCompleteQuestions round value).getD
    (.error "The AI returned malformed paper data. Try creating the paper again.")

/-- What `JSON.parse` says of a text that it cannot read differs among its implementations. -/
def normalizeText (json : List Char) : Except String GeneratedPaper :=
  match Json.parse round json with
  | none => .error (syntaxError json)
  | some v => normalizeGeneratedPaper v

def parseGeneratedPaperResponse (value : List Char) : Except String GeneratedPaper :=
  match extractJsonObject value with
  | none => recoverOrFail round value
  | some json =>
    match normalizeText round syntaxError json with
    | .ok paper => .ok paper
    | .error message =>
      if namesPaper.test message.toList then .error message
      else match normalizeText round syntaxError (repairCommonJsonIssues json) with
        | .ok paper => .ok paper
        | .error _ => recoverOrFail round value

/-- A value that is no array is read as the paper that it is, with anything without braces around
its text. -/
theorem parse_object {x : Json} (hx : x.Proper round)
    (harray : ∀ items, x ≠ .array items) {paper : GeneratedPaper}
    (hpaper : normalizeGeneratedPaper x = .ok paper) {before behind : List Char}
    (hbefore : '{' ∉ before) (hbehind : '}' ∉ behind) :
    parseGeneratedPaperResponse round syntaxError (before ++ x.stringify ++ behind) =
      .ok paper := by
  obtain ⟨members, rfl⟩ : ∃ members, x = .object members := by
    cases x with
    | array items => exact absurd rfl (harray items)
    | object members => exact ⟨members, rfl⟩
    | _ => cases hpaper
  have hencloses : Encloses (Json.object members).stringify
      (before ++ (Json.object members).stringify ++ behind) :=
    ⟨before, behind, List.append_assoc .., hbefore, hbehind⟩
  have hextract := extractJsonObject_of_encloses (Json.stringify_object members) hencloses
  have hnormalized : normalizeText round syntaxError (Json.object members).stringify =
      .ok paper := by
    rw [normalizeText, Json.parse_stringify hx]
    exact hpaper
  rw [parseGeneratedPaperResponse, hextract]
  simp only [hnormalized]

theorem tokens_objects {items : List Json} (hobjects : ∀ q ∈ items, ∃ members, q = .object members)
    (hmany : 2 ≤ items.length) :
    ∃ (question : Json) (us : List Token), (Json.array items).tokens = .openArray ::
        ((question.tokens ++ .comma :: us) ++ [.closeArray]) ∧
      Braced ((question.tokens ++ .comma :: us).flatMap Token.text) := by
  have hmore (xs : List Json) (hne : xs ≠ []) (h : ∀ q ∈ xs, ∃ members, q = .object members) :
      ∃ us, Json.moreItems xs = .comma :: (us ++ [.closeObject, .closeArray]) := by
    induction xs with
    | nil => exact absurd rfl hne
    | cons x xs ih =>
      rw [List.forall_mem_cons] at h
      obtain ⟨members, rfl⟩ := h.1
      obtain ⟨us, hus⟩ := Json.tokens_object members
      cases xs with
      | nil => exact ⟨.openObject :: us, by simp [Json.moreItems, hus]⟩
      | cons y ys =>
        obtain ⟨vs, hvs⟩ := ih (List.cons_ne_nil y ys) h.2
        exact ⟨(Json.object members).tokens ++ .comma :: vs, by rw [Json.moreItems, hvs]; simp⟩
  match items with
  | [] => simp at hmany
  | [_] => simp at hmany
  | x :: y :: items =>
    rw [List.forall_mem_cons] at hobjects
    obtain ⟨members, rfl⟩ := hobjects.1
    obtain ⟨us, hus⟩ := Json.tokens_object members
    obtain ⟨vs, hvs⟩ := hmore (y :: items) (List.cons_ne_nil y items) hobjects.2
    refine ⟨.object members, vs ++ [.closeObject], ?_, ?_⟩
    · rw [Json.tokens, hvs]
      simp
    · refine ⟨(us ++ [Token.closeObject] ++ Token.comma :: vs).flatMap Token.text, ?_⟩
      rw [hus]
      simp [Token.text]

theorem isChain_mapString {ts : List Token} {f : List Char → List Char}
    (h : ts.IsChain (Token.mayFollow · ·)) :
    (ts.map (Token.mapString f)).IsChain (Token.mayFollow · ·) := by
  rw [List.isChain_map]
  refine h.imp fun t u htu => ?_
  cases t <;> cases u <;> exact htu

theorem parse_items_eq_none (round : Decimal → Decimal) {question : Json} {us : List Token}
    (hchain : (question.tokens ++ .comma :: us).IsChain (Token.mayFollow · ·)) :
    Json.parse round ((question.tokens ++ .comma :: us).flatMap Token.text) = none ∧
      Json.parse round (repairCommonJsonIssues
        ((question.tokens ++ .comma :: us).flatMap Token.text)) = none := by
  constructor
  · rw [Option.eq_none_iff_forall_ne_some]
    intro v hv
    obtain ⟨w, hw, -⟩ := Json.parse_eq_some_iff.mp hv
    rw [Json.lex_tokens hchain] at hw
    exact Json.tokens_append_ne (Option.some.inj hw)
  · have hmapped : (question.tokens ++ .comma :: us).map
        (Token.mapString (withoutCommas isPlainSpace false)) =
          (question.mapStrings (withoutCommas isPlainSpace false)).tokens ++
            .comma :: us.map (Token.mapString (withoutCommas isPlainSpace false)) := by
      rw [Json.tokens_mapStrings, List.map_append]
      rfl
    rw [repair_tokens hchain, Option.eq_none_iff_forall_ne_some]
    intro v hv
    obtain ⟨w, hw, -⟩ := Json.parse_eq_some_iff.mp hv
    rw [Json.lex_tokens (isChain_mapString hchain), hmapped] at hw
    exact Json.tokens_append_ne (Option.some.inj hw)

theorem parse_list {items : List Json} (hobjects : ∀ q ∈ items, ∃ members, q = .object members)
    (hmany : 2 ≤ items.length) {before behind : List Char} (hbefore : '{' ∉ before)
    (hbehind : '}' ∉ behind)
    (hstart : questionsStart.test (before ++ (Json.array items).stringify ++ behind) = false) :
    ∃ message, parseGeneratedPaperResponse round syntaxError
      (before ++ (Json.array items).stringify ++ behind) = .error message := by
  obtain ⟨question, us, htokens, hbraced⟩ := tokens_objects hobjects hmany
  have htext : (Json.array items).stringify =
      '[' :: ((question.tokens ++ .comma :: us).flatMap Token.text ++ [']']) := by
    rw [Json.stringify, htokens]
    simp [Token.text]
  have hchain : (question.tokens ++ .comma :: us).IsChain (Token.mayFollow · ·) := by
    have hall := Json.isChain_tokens (.array items) [] (by simp) .nil
    rw [List.append_nil, htokens] at hall
    exact (List.isChain_append.mp (List.isChain_cons.mp hall).2).1
  generalize hcore : (question.tokens ++ .comma :: us).flatMap Token.text = core at *
  have hencloses : Encloses core (before ++ (Json.array items).stringify ++ behind) := by
    refine ⟨before ++ ['['], ']' :: behind, by simp [htext], ?_, ?_⟩
    · simp [hbefore]
    · simp [hbehind]
  obtain ⟨hnone, hrepaired⟩ := parse_items_eq_none round hchain
  rw [hcore] at hnone hrepaired
  have hrecovered : recoverCompleteQuestions round
      (before ++ (Json.array items).stringify ++ behind) = none := by
    have hexec : questionsStart.exec (before ++ (Json.array items).stringify ++ behind) = none := by
      simpa [Pattern.test] using hstart
    rw [recoverCompleteQuestions, hexec, Option.bind_none]
  rw [parseGeneratedPaperResponse, extractJsonObject_of_encloses hbraced hencloses]
  simp only [normalizeText, hnone, hrepaired, recoverOrFail, hrecovered, Option.getD_none]
  split
  · exact ⟨_, rfl⟩
  · exact ⟨_, rfl⟩

/-- What is no array is read as the paper that it is, with anything without braces around its text.
A list of several questions is not, unless its text has the start of a list of questions in it. -/
theorem parseGeneratedPaperResponse_stringify {x : Json} (hx : x.Proper round)
    {paper : GeneratedPaper} (hpaper : normalizeGeneratedPaper x = .ok paper)
    {before behind : List Char} (hbefore : '{' ∉ before) (hbehind : '}' ∉ behind) :
    ((∀ items, x ≠ .array items) →
      parseGeneratedPaperResponse round syntaxError (before ++ x.stringify ++ behind) =
        .ok paper) ∧
    ∀ items, x = .array items → (∀ q ∈ items, ∃ members, q = .object members) →
      2 ≤ items.length →
      questionsStart.test (before ++ x.stringify ++ behind) = false →
      parseGeneratedPaperResponse round syntaxError (before ++ x.stringify ++ behind) ≠
        .ok paper := by
  refine ⟨fun harray => parse_object round syntaxError hx harray hpaper hbefore hbehind, ?_⟩
  rintro items rfl hobjects hmany hstart
  obtain ⟨message, hmessage⟩ := parse_list round syntaxError hobjects hmany hbefore hbehind hstart
  rw [hmessage]
  simp

def twoQuestions : List Json :=
  [.object [("prompt".toList, .string ['A'])], .object [("prompt".toList, .string ['B'])]]

/-- A paper in a fence. -/
theorem parseGeneratedPaperResponse_sample :
    parseGeneratedPaperResponse id (fun _ => "") ("\x60\x60\x60json\n".toList ++
      (Json.object [("questions".toList, .array twoQuestions)]).stringify ++
        "\n\x60\x60\x60".toList) =
          normalizeGeneratedPaper (.object [("questions".toList, .array twoQuestions)]) := by
  have hproper : (Json.object [("questions".toList, .array twoQuestions)]).Proper id :=
    ⟨by decide, ⟨⟨by decide, trivial, trivial⟩, ⟨by decide, trivial, trivial⟩, trivial⟩, trivial⟩
  obtain ⟨paper, hpaper⟩ : ∃ paper, normalizeGeneratedPaper
      (.object [("questions".toList, .array twoQuestions)]) = .ok paper := ⟨_, rfl⟩
  rw [hpaper]
  exact (parseGeneratedPaperResponse_stringify id (fun _ => "") hproper hpaper (by decide)
    (by decide)).1 (by simp)

/-- The brackets of a bare list are cut off. -/
theorem bare_list_is_lost :
    (∃ paper, normalizeGeneratedPaper (.array twoQuestions) = .ok paper) ∧
      parseGeneratedPaperResponse id (fun _ => "") (Json.array twoQuestions).stringify ≠
        normalizeGeneratedPaper (.array twoQuestions) := by
  obtain ⟨paper, hpaper⟩ : ∃ paper, normalizeGeneratedPaper (.array twoQuestions) = .ok paper :=
    ⟨_, rfl⟩
  have hlost : parseGeneratedPaperResponse id (fun _ => "") (Json.array twoQuestions).stringify =
      .error "The AI returned malformed paper data. Try creating the paper again." := by
    rfl
  refine ⟨⟨paper, hpaper⟩, ?_⟩
  rw [hlost, hpaper]
  simp

end Responses

end Cinder.Worksheets
