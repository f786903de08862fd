import Cinder.Ecma.PatternContexts
import Cinder.Worksheets.PaperResponses
set_option autoImplicit false

namespace Cinder.Worksheets
open Cinder.Streams Cinder.Ecma

section Scanning
variable {round : Decimal → Decimal}

def QuestionScan.outside (fragment : List Char) (depth : ℕ) (questions : List Json) :
    QuestionScan :=
  ⟨fragment, depth, false, false, questions⟩

inductive Keeps (round : Decimal → Decimal) : QuestionScan → List Char → QuestionScan → Prop
  | nil {q : QuestionScan} (hdepth : 1 ≤ q.depth) : Keeps round q [] q
  | cons {q q' : QuestionScan} {c : Char} {s : List Char} (hdepth : 1 ≤ q.depth)
      (hsame : (q.step round c).questions = q.questions) (h : Keeps round (q.step round c) s q') :
      Keeps round q (c :: s) q'

variable {q q' q'' : QuestionScan} {s t : List Char}

theorem Keeps.append (h : Keeps round q s q') (h' : Keeps round q' t q'') :
    Keeps round q (s ++ t) q'' := by
  induction h with
  | nil => exact h'
  | cons hdepth hsame _ ih => exact .cons hdepth hsame (ih h')

theorem Keeps.depth (h : Keeps round q s q') : 1 ≤ q.depth := by
  cases h with
  | nil h => exact h
  | cons h => exact h

theorem breaks_of_depth (h : 1 ≤ q.depth) (c : Char) : q.breaks c = false := by
  simp [QuestionScan.breaks, Nat.one_le_iff_ne_zero.mp h]

theorem Keeps.run_append (h : Keeps round q s q') (t : List Char) :
    q.run round (s ++ t) = q'.run round t := by
  induction h with
  | nil => rfl
  | cons hdepth _ _ ih =>
    rw [List.cons_append, QuestionScan.run, breaks_of_depth hdepth]
    exact ih

def IsHalf (half : List Char) : Prop := half = [] ∨ half = [Char.ofNat 0xFFFD]

theorem run_half {half : List Char} (hhalf : IsHalf half) (q : QuestionScan) :
    q.run round half = q.questions := by
  rcases hhalf with rfl | rfl
  · rfl
  · have hbreaks : q.breaks (Char.ofNat 0xFFFD) = false := by
      simp [QuestionScan.breaks]
    rw [QuestionScan.run, hbreaks]
    simp only [Bool.false_eq_true, if_false, QuestionScan.run, QuestionScan.step]
    split
    · split
      · rfl
      · split <;> rfl
    · rfl

theorem Keeps.run_cut (h : Keeps round q s q') {p half : List Char} (hp : p <+: s)
    (hhalf : IsHalf half) : q.run round (p ++ half) = q.questions := by
  induction h generalizing p with
  | nil =>
    rw [List.prefix_nil.mp hp]
    exact run_half hhalf _
  | @cons q _ c _ hdepth hsame _ ih =>
    cases p with
    | nil => exact run_half hhalf _
    | cons d p =>
      obtain ⟨rfl, hmore⟩ := List.cons_prefix_cons.mp hp
      rw [List.cons_append, QuestionScan.run, breaks_of_depth hdepth]
      exact (ih hmore).trans hsame

def Reads (round : Decimal → Decimal) (d : ℕ) (s : List Char) (e : ℕ) : Prop :=
  ∀ fragment questions, Keeps round (.outside fragment d questions) s
    (.outside (s.reverse ++ fragment) e questions)

variable {d e f : ℕ}

theorem Reads.append (h : Reads round d s e) (h' : Reads round e t f) :
    Reads round d (s ++ t) f := by
  intro fragment questions
  have hboth := (h fragment questions).append (h' _ questions)
  rwa [← List.append_assoc, ← List.reverse_append] at hboth

theorem Reads.nil (hd : 1 ≤ d) : Reads round d [] d := fun _ _ => .nil hd

theorem reads_char {c : Char} (hd : 1 ≤ d) (hquote : c ≠ '"') (hopen : c ≠ '{')
    (hclose : c ≠ '}') : Reads round d [c] d := by
  intro fragment questions
  have hstep : (QuestionScan.outside fragment d questions).step round c =
      .outside (c :: fragment) d questions := by
    simp [QuestionScan.step, QuestionScan.outside, hquote, hopen, hclose]
  exact .cons hd (by rw [hstep]; rfl) (by rw [hstep]; exact .nil hd)

theorem reads_open (hd : 1 ≤ d) : Reads round d ['{'] (d+1) := by
  intro fragment questions
  have hstep : (QuestionScan.outside fragment d questions).step round '{' =
      .outside ('{' :: fragment) (d+1) questions := by
    simp [QuestionScan.step, QuestionScan.outside, Nat.one_le_iff_ne_zero.mp hd]
  exact .cons hd (by rw [hstep]; rfl) (by rw [hstep]; exact .nil (Nat.le_succ_of_le hd))

theorem reads_close (hd : 1 ≤ d) : Reads round (d+1) ['}'] d := by
  intro fragment questions
  have hstep : (QuestionScan.outside fragment (d+1) questions).step round '}' =
      .outside ('}' :: fragment) d questions := by
    simp [QuestionScan.step, QuestionScan.outside, Nat.one_le_iff_ne_zero.mp hd]
  exact .cons (Nat.le_add_left 1 d) (by rw [hstep]; rfl) (by rw [hstep]; exact .nil hd)

theorem reads_chars (hd : 1 ≤ d) (h : ∀ c ∈ s, c ≠ '"' ∧ c ≠ '{' ∧ c ≠ '}') :
    Reads round d s d := by
  induction s with
  | nil => exact .nil hd
  | cons c s ih =>
    rw [List.forall_mem_cons] at h
    obtain ⟨⟨hquote, hopen, hclose⟩, hmore⟩ := h
    exact (reads_char hd hquote hopen hclose).append (ih hmore)

end Scanning

section Strings
variable {round : Decimal → Decimal} {d : ℕ}

def QuestionScan.within (fragment : List Char) (depth : ℕ) (questions : List Json) : QuestionScan :=
  ⟨fragment, depth, true, false, questions⟩

theorem keeps_plain (round : Decimal → Decimal) (hd : 1 ≤ d) {c : Char}
    (hc : Json.isPlain c = true) (fragment : List Char) (questions : List Json) :
    Keeps round (.within fragment d questions) [c] (.within (c :: fragment) d questions) := by
  simp only [Json.isPlain, Bool.and_eq_true, decide_eq_true_eq] at hc
  have hstep : (QuestionScan.within fragment d questions).step round c =
      .within (c :: fragment) d questions := by
    simp [QuestionScan.step, QuestionScan.within, hc.1.1, hc.1.2]
  exact .cons hd (by rw [hstep]; rfl) (by rw [hstep]; exact .nil hd)

theorem keeps_pair (round : Decimal → Decimal) (hd : 1 ≤ d) (x : Char) (fragment : List Char)
    (questions : List Json) :
    Keeps round (.within fragment d questions) ['\\', x]
      (.within (x :: '\\' :: fragment) d questions) :=
  .cons hd rfl (.cons hd rfl (.nil hd))

theorem keeps_plains (hd : 1 ≤ d) {s : List Char} (h : s.all Char.isAlphanum = true)
    (fragment : List Char) (questions : List Json) :
    Keeps round (.within fragment d questions) s
      (.within (s.reverse ++ fragment) d questions) := by
  induction s generalizing fragment with
  | nil => exact .nil hd
  | cons c s ih =>
    rw [List.all_cons, Bool.and_eq_true] at h
    have hplain := keeps_plain round hd (Json.isPlain_of_isAlphanum h.1) fragment questions
    have hboth := hplain.append (ih h.2 (c :: fragment))
    rwa [List.reverse_cons, List.append_assoc]

theorem keeps_escape (hd : 1 ≤ d) (c : Char) (fragment : List Char) (questions : List Json) :
    Keeps round (.within fragment d questions) (Json.escape c)
      (.within ((Json.escape c).reverse ++ fragment) d questions) := by
  cases hplain : Json.isPlain c with
  | true =>
    rw [Json.escape_plain hplain]
    exact keeps_plain round hd hplain fragment questions
  | false =>
    rcases Json.escape_special hplain with ⟨-, hescape⟩ | ⟨-, hescape⟩ | ⟨-, hescape⟩
    · rw [hescape]
      exact keeps_pair round hd _ fragment questions
    · rw [hescape]
      exact keeps_pair round hd _ fragment questions
    · obtain ⟨x, t, hcons, -, ht⟩ := Json.exists_of_isEscape hescape
      have hboth := (keeps_pair round hd x fragment questions).append
        (keeps_plains hd ht _ questions)
      rw [hcons]
      simpa using hboth

theorem reads_quote (hd : 1 ≤ d) (s : List Char) : Reads round d (Json.quote s) d := by
  intro fragment questions
  have hbody (fragment : List Char) : Keeps round (.within fragment d questions)
      (s.flatMap Json.escape ++ ['"'])
        (.outside ((s.flatMap Json.escape ++ ['"']).reverse ++ fragment) d questions) := by
    induction s generalizing fragment with
    | nil => exact .cons hd rfl (.nil hd)
    | cons c s ih =>
      have hboth := (keeps_escape hd c fragment questions).append (ih _)
      simpa using hboth
  have hopened : (QuestionScan.outside fragment d questions).step round '"' =
      .within ('"' :: fragment) d questions := rfl
  refine .cons hd rfl ?_
  rw [hopened]
  simpa [Json.quote] using hbody ('"' :: fragment)

end Strings

section Values
variable {round : Decimal → Decimal} {d : ℕ}

def isBrace (t : Token) : Bool := t = .openObject || t = .closeObject

theorem reads_token (hd : 1 ≤ d) {t : Token} (ht : isBrace t = false) :
    Reads round d t.text d := by
  cases t with
  | string s => exact reads_quote hd s
  | openObject => cases ht
  | closeObject => cases ht
  | number n =>
    refine reads_chars hd fun c hc => ?_
    rcases List.mem_append.mp hc with hc | hc
    · split at hc
      · simp [List.mem_singleton.mp hc]
      · cases hc
    · rcases n.mem_unsignedText c hc with hdigit | hmem
      · refine ⟨?_, ?_, ?_⟩ <;> rintro rfl <;> cases hdigit
      · simp only [List.mem_cons, List.not_mem_nil, or_false] at hmem
        rcases hmem with rfl | rfl | rfl | rfl <;> decide
  | boolean b => cases b <;> exact reads_chars hd (by simp [Token.text])
  | _ => exact reads_chars hd (by simp [Token.text])

def writeTokens (ts : List Token) : List Char := ts.flatMap Token.text

theorem writeTokens_cons (t : Token) (ts : List Token) :
    writeTokens (t :: ts) = t.text ++ writeTokens ts := List.flatMap_cons

theorem writeTokens_append (ts us : List Token) :
    writeTokens (ts ++ us) = writeTokens ts ++ writeTokens us := List.flatMap_append

theorem reads_cons (hd : 1 ≤ d) {t : Token} (ht : isBrace t = false) {ts : List Token} {e : ℕ}
    (h : Reads round d (writeTokens ts) e) : Reads round d (writeTokens (t :: ts)) e := by
  rw [writeTokens_cons]
  exact (reads_token hd ht).append h

theorem reads_braces (hd : 1 ≤ d) {us : List Token}
    (h : Reads round (d+1) (writeTokens us) (d+1)) :
    Reads round d (writeTokens (.openObject :: (us ++ [.closeObject]))) d := by
  rw [writeTokens_cons, writeTokens_append]
  exact (reads_open hd).append (h.append (reads_close hd))

theorem reads_append {ts us : List Token} {e f : ℕ} (h : Reads round d (writeTokens ts) e)
    (h' : Reads round e (writeTokens us) f) : Reads round d (writeTokens (ts ++ us)) f := by
  rw [writeTokens_append]
  exact h.append h'

mutual

theorem reads_value (round : Decimal → Decimal) : ∀ (v : Json) {d : ℕ}, 1 ≤ d →
    Reads round d (writeTokens v.tokens) d
  | .null, d, hd => reads_cons hd rfl (.nil hd)
  | .boolean b, d, hd => reads_cons hd rfl (.nil hd)
  | .number n, d, hd => reads_cons hd rfl (.nil hd)
  | .string s, d, hd => reads_cons hd rfl (.nil hd)
  | .array [], d, hd => reads_cons hd rfl (reads_cons hd rfl (.nil hd))
  | .array (x :: xs), d, hd => by
    rw [Json.tokens]
    exact reads_cons hd rfl (reads_append (reads_value round x hd) (reads_items round xs hd))
  | .object [], d, hd => by
    have hnone : Reads round (d+1) (writeTokens []) (d+1) := .nil (Nat.le_add_left 1 d)
    exact reads_braces hd hnone
  | .object (m :: ms), d, hd => by
    have hinner : 1 ≤ d+1 := Nat.le_add_left 1 d
    obtain ⟨us, hus, hreads⟩ := reads_members round ms
    have hbody := reads_append (reads_value round m.2 hinner) (hreads (d+1) hinner)
    have hall := reads_braces hd (reads_cons hinner (t := .string m.1) rfl
      (reads_cons hinner (t := .colon) rfl hbody))
    rw [Json.tokens, hus]
    simpa using hall

theorem reads_items (round : Decimal → Decimal) : ∀ (xs : List Json) {d : ℕ}, 1 ≤ d →
    Reads round d (writeTokens (Json.moreItems xs)) d
  | [], d, hd => reads_cons hd rfl (.nil hd)
  | x :: xs, d, hd => by
    rw [Json.moreItems]
    exact reads_cons hd rfl (reads_append (reads_value round x hd) (reads_items round xs hd))

theorem reads_members (round : Decimal → Decimal) : ∀ ms : List (List Char × Json),
    ∃ us, Json.moreMembers ms = us ++ [.closeObject] ∧
      ∀ d, 1 ≤ d → Reads round d (writeTokens us) d
  | [] => ⟨[], rfl, fun _ hd => .nil hd⟩
  | m :: ms => by
    obtain ⟨us, hus, hreads⟩ := reads_members round ms
    refine ⟨.comma :: .string m.1 :: .colon :: (m.2.tokens ++ us), ?_, fun d hd => ?_⟩
    · rw [Json.moreMembers, hus]
      simp
    · exact reads_cons hd rfl (reads_cons hd rfl (reads_cons hd rfl
        (reads_append (reads_value round m.2 hd) (hreads d hd))))

end

theorem stringify_question (round : Decimal → Decimal) (members : List (List Char × Json)) :
    ∃ s, (Json.object members).stringify = '{' :: (s ++ ['}']) ∧ Reads round 1 s 1 := by
  cases members with
  | nil => exact ⟨[], rfl, .nil le_rfl⟩
  | cons m ms =>
    obtain ⟨us, hus, hreads⟩ := reads_members round ms
    refine ⟨writeTokens (.string m.1 :: .colon :: (m.2.tokens ++ us)), ?_, ?_⟩
    · simp [Json.stringify, Json.tokens, hus, writeTokens, Token.text]
    · exact reads_cons le_rfl rfl (reads_cons le_rfl rfl
        (reads_append (reads_value round m.2 le_rfl) (hreads 1 le_rfl)))

end Values

section Cuts

def units (s : List Char) : ℕ := (s.map unitCount).sum

theorem units_append (s t : List Char) : units (s ++ t) = units s+units t := by simp [units]

/-- `slice` from the start, where half a character is the replacement character. -/
def cutUnits : ℕ → List Char → List Char
  | _, [] => []
  | n, c :: s =>
    if unitCount c ≤ n then c :: cutUnits (n-unitCount c) s
    else if n = 0 then []
    else [Char.ofNat 0xFFFD]

theorem cutUnits_append {n : ℕ} {s : List Char} (h : units s ≤ n) (t : List Char) :
    cutUnits n (s ++ t) = s ++ cutUnits (n-units s) t := by
  induction s generalizing n with
  | nil => rfl
  | cons c s ih =>
    have hunits : units (c :: s) = unitCount c+units s := by simp [units]
    rw [hunits] at h
    have hn : n-(unitCount c+units s) = n-unitCount c-units s := by omega
    rw [List.cons_append, cutUnits, if_pos (by omega), ih (by omega), hunits, hn, List.cons_append]

theorem cutUnits_short {n : ℕ} {s : List Char} (h : n < units s) (t : List Char) :
    ∃ p half, cutUnits n (s ++ t) = p ++ half ∧ p <+: s ∧ p ≠ s ∧ IsHalf half := by
  induction s generalizing n with
  | nil => simp [units] at h
  | cons c s ih =>
    have hunits : units (c :: s) = unitCount c+units s := by simp [units]
    rw [hunits] at h
    rw [List.cons_append, cutUnits]
    split
    · obtain ⟨p, half, hcut, hprefix, hne, hhalf⟩ := ih (by omega : n-unitCount c < units s)
      refine ⟨c :: p, half, by rw [hcut]; rfl, List.cons_prefix_cons.mpr ⟨rfl, hprefix⟩, ?_, hhalf⟩
      exact fun heq => hne (List.cons.inj heq).2
    · split
      · exact ⟨[], [], rfl, List.nil_prefix, List.cons_ne_nil _ _ |>.symm, .inl rfl⟩
      · exact ⟨[], [_], rfl, List.nil_prefix, List.cons_ne_nil _ _ |>.symm, .inr rfl⟩

end Cuts

section Questions
variable {round : Decimal → Decimal}

/-- The questions of a list that end within so many units of the text of its items. -/
def wholeQuestions : ℕ → List Json → List Json
  | _, [] => []
  | n, question :: questions =>
    let length := units question.stringify
    -- A comma stands between two questions.
    if length ≤ n then question :: wholeQuestions (n-length-1) questions else []

variable {members : List (List Char × Json)} {fragment : List Char} {found : List Json}

theorem run_question (hq : (Json.object members).Proper round) (fragment : List Char)
    (found : List Json) (rest : List Char) :
    (QuestionScan.outside fragment 0 found).run round ((Json.object members).stringify ++ rest) =
      (QuestionScan.outside [] 0 (found ++ [.object members])).run round rest := by
  obtain ⟨s, hs, hreads⟩ := stringify_question round members
  have hparse := Json.parse_stringify hq
  have hopened : (QuestionScan.outside fragment 0 found).step round '{' = .outside ['{'] 1 found :=
    rfl
  have hclosed : (QuestionScan.outside (s.reverse ++ ['{']) 1 found).step round '}' =
      .outside [] 0 (found ++ [.object members]) := by
    have hfragment : ('}' :: (s.reverse ++ ['{'])).reverse = (Json.object members).stringify := by
      simp [hs]
    simp [QuestionScan.step, QuestionScan.outside, readFragment, ← hs, hparse]
  have hkeeps := hreads ['{'] found
  have hrun (t : List Char) : (QuestionScan.outside fragment 0 found).run round ('{' :: t) =
      (QuestionScan.outside ['{'] 1 found).run round t := rfl
  rw [hs, List.cons_append, List.append_assoc, hrun, hkeeps.run_append, List.singleton_append,
    QuestionScan.run, breaks_of_depth le_rfl, hclosed]
  rfl

theorem run_question_cut {p half : List Char} (hp : p <+: (Json.object members).stringify)
    (hne : p ≠ (Json.object members).stringify) (hhalf : IsHalf half) :
    (QuestionScan.outside fragment 0 found).run round (p ++ half) = found := by
  obtain ⟨s, hs, hreads⟩ := stringify_question round members
  rw [hs] at hp hne
  cases p with
  | nil => exact run_half hhalf _
  | cons c p =>
    obtain ⟨rfl, hmore⟩ := List.cons_prefix_cons.mp hp
    have hprefix : p <+: s := by
      rcases List.prefix_concat_iff.mp hmore with rfl | hprefix
      · exact absurd rfl hne
      · exact hprefix
    have hrun (t : List Char) : (QuestionScan.outside fragment 0 found).run round ('{' :: t) =
        (QuestionScan.outside ['{'] 1 found).run round t := rfl
    rw [List.cons_append, hrun]
    exact (hreads ['{'] found).run_cut hprefix hhalf

theorem units_question_pos {question : Json} (h : ∃ members, question = .object members) :
    0 < units question.stringify := by
  obtain ⟨members, rfl⟩ := h
  obtain ⟨s, hs⟩ := Json.stringify_object members
  have hbrace : units ['{'] = 1 := by decide
  rw [hs, ← List.singleton_append, units_append, hbrace]
  omega

theorem run_questions {questions : List Json} {question : Json}
    (hobjects : ∀ q ∈ question :: questions, ∃ members, q = .object members)
    (hproper : Json.ProperItems round (question :: questions)) {n : ℕ}
    (hcut : wholeQuestions n (question :: questions) ≠ question :: questions)
    (fragment : List Char) (found : List Json) (rest : List Char) :
    (QuestionScan.outside fragment 0 found).run round
        (cutUnits n (question.stringify ++ (writeTokens (Json.moreItems questions) ++ rest))) =
      found ++ wholeQuestions n (question :: questions) := by
  induction questions generalizing question n fragment found with
  | nil =>
    rw [List.forall_mem_cons] at hobjects
    obtain ⟨members, rfl⟩ := hobjects.1
    have hshort : n < units (Json.object members).stringify := by
      by_contra h
      simp [wholeQuestions, Nat.le_of_not_lt h] at hcut
    obtain ⟨p, half, hpieces, hprefix, hne, hhalf⟩ := cutUnits_short hshort _
    rw [hpieces, run_question_cut hprefix hne hhalf]
    simp [wholeQuestions, Nat.not_le_of_lt hshort]
  | cons next questions ih =>
    rw [List.forall_mem_cons] at hobjects
    obtain ⟨members, rfl⟩ := hobjects.1
    by_cases hwhole : units (Json.object members).stringify ≤ n
    · have hfound : wholeQuestions n (.object members :: next :: questions) = .object members ::
          wholeQuestions (n-units (Json.object members).stringify-1) (next :: questions) := by
        rw [wholeQuestions]
        exact if_pos hwhole
      rw [hfound] at hcut ⊢
      have hmore : wholeQuestions (n-units (Json.object members).stringify-1) (next :: questions) ≠
          next :: questions := fun h => hcut (by rw [h])
      have hnext := ih hobjects.2 hproper.2 hmore [','] (found ++ [.object members])
      have htext : writeTokens (Json.moreItems (next :: questions)) ++ rest =
          ',' :: (next.stringify ++ (writeTokens (Json.moreItems questions) ++ rest)) := by
        rw [Json.moreItems, writeTokens_cons, writeTokens_append, List.append_assoc,
          List.append_assoc]
        rfl
      rw [cutUnits_append hwhole, run_question hproper.1, htext]
      cases hleft : n-units (Json.object members).stringify with
      | zero =>
        have hpos := units_question_pos (hobjects.2 next List.mem_cons_self)
        have hnone : wholeQuestions (0-1) (next :: questions) = [] := by
          rw [wholeQuestions]
          exact if_neg (by omega)
        rw [hnone]
        rfl
      | succ k =>
        have hrun (t : List Char) :
            (QuestionScan.outside [] 0 (found ++ [.object members])).run round (',' :: t) =
              (QuestionScan.outside [','] 0 (found ++ [.object members])).run round t := rfl
        have hcomma : cutUnits (k+1) (',' ::
            (next.stringify ++ (writeTokens (Json.moreItems questions) ++ rest))) = ',' ::
              cutUnits k (next.stringify ++ (writeTokens (Json.moreItems questions) ++ rest)) := by
          have hunit : unitCount ',' = 1 := by decide
          rw [cutUnits, hunit, if_pos (Nat.le_add_left 1 k), Nat.add_sub_cancel]
        rw [hleft, Nat.add_sub_cancel] at hnext
        rw [hcomma, hrun, hnext, Nat.add_sub_cancel, List.append_assoc]
        rfl
    · have hshort : n < units (Json.object members).stringify := Nat.lt_of_not_le hwhole
      obtain ⟨p, half, hpieces, hprefix, hne, hhalf⟩ := cutUnits_short hshort _
      rw [hpieces, run_question_cut hprefix hne hhalf]
      simp [wholeQuestions, hwhole]

end Questions

section Start

def IsStart (t : List Char) : Prop :=
  ∃ q w q' u u', t = q :: (w ++ q' :: (u ++ ':' :: (u' ++ ['[']))) ∧ isKeyQuote q = true ∧
    List.Forall₂ (fun c d => Pattern.isLetter c d = true) "questions".toList w ∧
    isKeyQuote q' = true ∧ (∀ c ∈ u, isWhiteSpace c = true) ∧ ∀ c ∈ u', isWhiteSpace c = true

theorem way_questionsStart {before t after : List Char} {g : List (Nat × List Char)} :
    questionsStart.Way before t after g ↔ IsStart t ∧ g = [] := by
  constructor
  · rintro ⟨t₁, t₂, g₁, g₂, rfl, rfl, ⟨⟨q, hq, rfl⟩, rfl⟩, w, t₃, g₃, g₄, rfl, rfl, hw,
      t₄, t₅, g₅, g₆, rfl, rfl, ⟨⟨q', hq', rfl⟩, rfl⟩, u, t₆, g₇, g₈, rfl, rfl, ⟨hu, rfl⟩,
      t₇, t₈, g₉, g₁₀, rfl, rfl, ⟨⟨c, hc, rfl⟩, rfl⟩, u', t₉, g₁₁, g₁₂, rfl, rfl, ⟨hu', rfl⟩,
      t₁₀, t₁₁, g₁₃, g₁₄, rfl, rfl, ⟨⟨d, hd, rfl⟩, rfl⟩, rfl, rfl⟩
    obtain ⟨hletters, rfl⟩ := Pattern.way_word.mp hw
    obtain rfl : c = ':' := by simpa using hc
    obtain rfl : d = '[' := by simpa using hd
    exact ⟨⟨q, w, q', u, u', by simp, hq, hletters, hq', hu, hu'⟩, rfl⟩
  · rintro ⟨⟨q, w, q', u, u', rfl, hq, hletters, hq', hu, hu'⟩, rfl⟩
    exact ⟨[q], _, [], [], rfl, rfl, ⟨⟨q, hq, rfl⟩, rfl⟩, w, _, [], [], rfl, rfl,
      Pattern.way_word.mpr ⟨hletters, rfl⟩, [q'], _, [], [], rfl, rfl, ⟨⟨q', hq', rfl⟩, rfl⟩,
      u, _, [], [], rfl, rfl, ⟨hu, rfl⟩, [':'], _, [], [], rfl, rfl, ⟨⟨':', by simp, rfl⟩, rfl⟩,
      u', ['['], [], [], rfl, rfl, ⟨hu', rfl⟩, ['['], [], [], [], rfl, rfl,
      ⟨⟨'[', by simp, rfl⟩, rfl⟩, rfl, rfl⟩

theorem run_questionsStart_eq_nil {before s : List Char} :
    questionsStart.run ⟨before, s, []⟩ = [] ↔ ∀ t u, s = t ++ u → ¬IsStart t := by
  rw [List.eq_nil_iff_forall_not_mem]
  constructor
  · intro h t u hs hstart
    have hway : questionsStart.Way before t u [] := way_questionsStart.mpr ⟨hstart, rfl⟩
    exact h ⟨t.reverse ++ before, u, []⟩
      (Pattern.mem_run_iff.mpr ⟨t, [], hs, rfl, rfl, hway⟩)
  · intro h r hr
    obtain ⟨t, g, hrest, -, -, hway⟩ := Pattern.mem_run_iff.mp hr
    exact h t r.rest hrest (way_questionsStart.mp hway).1

/-- The text of a string that is taken for the start, behind a quote or where the string begins. -/
def startInText : Pattern :=
  .seqs [.alt .start (.char isKeyQuote), .word "questions".toList, .char (· = '\''),
    .star true isPlainSpace, .char (· = ':'), .star true isPlainSpace, .char (· = '[')]

def hidesStart (s : List Char) : Bool := startInText.test s

def Continues (s : List Char) : Prop :=
  ∃ w u u' rest, s = w ++ '\'' :: (u ++ ':' :: (u' ++ '[' :: rest)) ∧
    List.Forall₂ (fun c d => Pattern.isLetter c d = true) "questions".toList w ∧
    (∀ c ∈ u, isPlainSpace c = true) ∧ ∀ c ∈ u', isPlainSpace c = true

theorem hidesStart_of_continues {b s : List Char}
    (hb : b = [] ∨ ∃ c b', b = b' ++ [c] ∧ isKeyQuote c = true) (h : Continues s) :
    hidesStart (b ++ s) = true := by
  obtain ⟨w, u, u', rest, rfl, hletters, hu, hu'⟩ := h
  have hmore (before : List Char) : (Pattern.seqs [.word "questions".toList, .char (· = '\''),
      .star true isPlainSpace, .char (· = ':'), .star true isPlainSpace, .char (· = '[')]).Way
        before (w ++ '\'' :: (u ++ ':' :: (u' ++ ['[']))) rest [] :=
    ⟨w, _, [], [], rfl, rfl, Pattern.way_word.mpr ⟨hletters, rfl⟩, ['\''], _, [], [], rfl, rfl,
      ⟨⟨'\'', by simp, rfl⟩, rfl⟩, u, _, [], [], rfl, rfl, ⟨hu, rfl⟩, [':'], _, [], [], rfl, rfl,
      ⟨⟨':', by simp, rfl⟩, rfl⟩, u', ['['], [], [], rfl, rfl, ⟨hu', rfl⟩, ['['], [], [], [], rfl,
      rfl, ⟨⟨'[', by simp, rfl⟩, rfl⟩, rfl, rfl⟩
  rcases hb with rfl | ⟨c, b, rfl, hc⟩
  · have hway : startInText.Way ([] : List Char).reverse
        (w ++ '\'' :: (u ++ ':' :: (u' ++ ['[']))) rest [] :=
      ⟨[], _, [], [], rfl, rfl, .inl ⟨rfl, rfl, rfl⟩, hmore _⟩
    simpa [hidesStart] using Pattern.test_of_way hway
  · have hway : startInText.Way b.reverse
        (c :: (w ++ '\'' :: (u ++ ':' :: (u' ++ ['['])))) rest [] :=
      ⟨[c], _, [], [], rfl, rfl, .inr ⟨⟨c, hc, rfl⟩, rfl⟩, hmore _⟩
    simpa [hidesStart] using Pattern.test_of_way hway

theorem plain_of_string {s rest w u : List Char}
    (h : s.flatMap Json.escape ++ '"' :: rest = w ++ u) (hw : ∀ c ∈ w, c ≠ '"' ∧ c ≠ '\\') :
    ∃ s', s = w ++ s' ∧ u = s'.flatMap Json.escape ++ '"' :: rest ∧
      ∀ c ∈ w, Json.isPlain c = true := by
  induction w generalizing s with
  | nil => exact ⟨s, rfl, h.symm, List.forall_mem_nil _⟩
  | cons c w ih =>
    rw [List.forall_mem_cons] at hw
    cases s with
    | nil => exact absurd (List.cons.inj h).1.symm hw.1.1
    | cons d s =>
      rw [List.flatMap_cons, List.append_assoc] at h
      cases hplain : Json.isPlain d with
      | true =>
        rw [Json.escape_plain hplain] at h
        obtain ⟨rfl, hmore⟩ := List.cons.inj h
        obtain ⟨s', rfl, hu, hall⟩ := ih hmore hw.2
        exact ⟨s', rfl, hu, List.forall_mem_cons.mpr ⟨hplain, hall⟩⟩
      | false =>
        obtain ⟨⟨t, hescape, -⟩, -⟩ := escape_of_not_plain hplain
        rw [hescape] at h
        exact absurd (List.cons.inj h).1.symm hw.1.2

theorem isPlainSpace_of_forall {u : List Char} (hu : ∀ c ∈ u, isWhiteSpace c = true)
    (hplain : ∀ c ∈ u, Json.isPlain c = true) : ∀ c ∈ u, isPlainSpace c = true :=
  fun c hc => (isPlainSpace_of_plain (hplain c hc)).trans (hu c hc)

theorem space_ne {u : List Char} (hu : ∀ c ∈ u, isWhiteSpace c = true) :
    ∀ c ∈ u, c ≠ '"' ∧ c ≠ '\\' := by
  intro c hc
  have hspace := hu c hc
  constructor <;> rintro rfl <;> cases hspace

theorem letters_forall {P : Char → Bool} {l w : List Char}
    (h : List.Forall₂ (fun c d => Pattern.isLetter c d = true) l w)
    (hl : l.all (fun c => P c && P c.toUpper) = true) : ∀ d ∈ w, P d = true := by
  induction h with
  | nil => exact List.forall_mem_nil _
  | @cons c d l w hletter _ ih =>
    rw [List.all_cons, Bool.and_eq_true, Bool.and_eq_true] at hl
    refine List.forall_mem_cons.mpr ⟨?_, ih hl.2⟩
    simp only [Pattern.isLetter, Bool.or_eq_true, decide_eq_true_eq] at hletter
    rcases hletter with rfl | rfl
    · exact hl.1.1
    · exact hl.1.2

theorem letters_ne {w : List Char}
    (h : List.Forall₂ (fun c d => Pattern.isLetter c d = true) "questions".toList w) :
    ∀ c ∈ w, c ≠ '"' ∧ c ≠ '\\' := by
  have hall : "questions".toList.all (fun c =>
      (c ≠ '"' && c ≠ '\\') && (c.toUpper ≠ '"' && c.toUpper ≠ '\\')) = true := by decide
  intro c hc
  have hne := letters_forall (P := fun c => c ≠ '"' && c ≠ '\\') h hall c hc
  simpa using hne

theorem letters_head {w : List Char}
    (h : List.Forall₂ (fun c d => Pattern.isLetter c d = true) "questions".toList w) :
    ∃ c w', w = c :: w' ∧ (c = 'q' ∨ c = 'Q') := by
  rw [show "questions".toList = 'q' :: ['u', 'e', 's', 't', 'i', 'o', 'n', 's'] from rfl] at h
  obtain ⟨c, w', hc, -, rfl⟩ := List.forall₂_cons_left_iff.mp h
  refine ⟨c, w', rfl, ?_⟩
  simpa [Pattern.isLetter] using hc

def EndsString (rest : List Char) : Prop := ∃ c u, rest = c :: u ∧ (c = ',' ∨ c = ']')

theorem continues_of_start {s rest w u u' v : List Char} {q' : Char} (hrest : EndsString rest)
    (h : s.flatMap Json.escape ++ '"' :: rest = w ++ q' :: (u ++ ':' :: (u' ++ '[' :: v)))
    (hletters : List.Forall₂ (fun c d => Pattern.isLetter c d = true) "questions".toList w)
    (hq : isKeyQuote q' = true) (hu : ∀ c ∈ u, isWhiteSpace c = true)
    (hu' : ∀ c ∈ u', isWhiteSpace c = true) : Continues s := by
  obtain ⟨s₁, rfl, h₁, -⟩ := plain_of_string h (letters_ne hletters)
  have hquote : q' = '\'' := by
    by_contra hne
    obtain rfl : q' = '"' := by simpa [isKeyQuote, hne] using hq
    cases s₁ with
    | nil =>
      obtain ⟨c, v', hv, hc⟩ := hrest
      have hspaces : u ++ ':' :: (u' ++ '[' :: v) = c :: v' := by
        rw [← hv]
        exact (List.cons.inj h₁).2
      cases u with
      | nil =>
        obtain rfl := (List.cons.inj hspaces).1
        rcases hc with hc | hc <;> cases hc
      | cons d u =>
        obtain rfl := (List.cons.inj hspaces).1
        have hspace := hu d List.mem_cons_self
        rcases hc with rfl | rfl <;> cases hspace
    | cons d s =>
      rw [List.flatMap_cons, List.append_assoc] at h₁
      cases hplain : Json.isPlain d with
      | true =>
        rw [Json.escape_plain hplain] at h₁
        obtain rfl := (List.cons.inj h₁).1
        cases hplain
      | false =>
        obtain ⟨⟨t, hescape, -⟩, -⟩ := escape_of_not_plain hplain
        rw [hescape] at h₁
        cases (List.cons.inj h₁).1
  subst hquote
  have hcons : s₁.flatMap Json.escape ++ '"' :: rest =
      ['\''] ++ (u ++ ':' :: (u' ++ '[' :: v)) := h₁.symm
  obtain ⟨s₂, rfl, h₂, -⟩ := plain_of_string hcons (by simp)
  obtain ⟨s₃, rfl, h₃, hplain⟩ := plain_of_string h₂.symm (space_ne hu)
  have hcolon : s₃.flatMap Json.escape ++ '"' :: rest = [':'] ++ (u' ++ '[' :: v) := h₃.symm
  obtain ⟨s₄, rfl, h₄, -⟩ := plain_of_string hcolon (by simp)
  obtain ⟨s₅, rfl, h₅, hplain'⟩ := plain_of_string h₄.symm (space_ne hu')
  have hbracket : s₅.flatMap Json.escape ++ '"' :: rest = ['['] ++ v := h₅.symm
  obtain ⟨s₆, rfl, -, -⟩ := plain_of_string hbracket (by simp)
  exact ⟨w, u, u', s₆, by simp, hletters, isPlainSpace_of_forall hu hplain,
    isPlainSpace_of_forall hu' hplain'⟩

theorem run_of_not_quote {c : Char} (hc : isKeyQuote c = false) (before s : List Char) :
    questionsStart.run ⟨before, c :: s, []⟩ = [] := by
  rw [run_questionsStart_eq_nil]
  rintro t u heq ⟨q, w, q', v, v', rfl, hq, -⟩
  obtain rfl := (List.cons.inj heq).1
  rw [hq] at hc
  cases hc

theorem passes_of_no_quote {s : List Char} (h : ∀ c ∈ s, isKeyQuote c = false) (rest : List Char) :
    questionsStart.Passes s rest := by
  induction s with
  | nil => trivial
  | cons c s ih =>
    rw [List.forall_mem_cons] at h
    exact ⟨fun before => run_of_not_quote h.1 before _, ih h.2⟩

theorem run_of_quote {b s rest : List Char} (q : Char) (hrest : EndsString rest)
    (hb : b = [] ∨ ∃ c b', b = b' ++ [c] ∧ isKeyQuote c = true) (h : hidesStart (b ++ s) = false)
    (before : List Char) :
    questionsStart.run ⟨before, q :: (s.flatMap Json.escape ++ '"' :: rest), []⟩ = [] := by
  rw [run_questionsStart_eq_nil]
  rintro t u heq ⟨q, w, q', v, v', rfl, -, hletters, hq', hv, hv'⟩
  have hmore : s.flatMap Json.escape ++ '"' :: rest =
      w ++ q' :: (v ++ ':' :: (v' ++ '[' :: u)) := by
    simpa using (List.cons.inj heq).2
  have hcontinues := continues_of_start hrest hmore hletters hq' hv hv'
  rw [hidesStart_of_continues hb hcontinues] at h
  cases h

theorem run_of_string_end {rest : List Char} (hrest : EndsString rest) (before : List Char) :
    questionsStart.run ⟨before, '"' :: rest, []⟩ = [] := by
  rw [run_questionsStart_eq_nil]
  rintro t u heq ⟨q, w, q', v, v', rfl, -, hletters, -⟩
  obtain ⟨c, w, rfl, hletter⟩ := letters_head hletters
  obtain ⟨d, rest, rfl, hd⟩ := hrest
  obtain rfl := (List.cons.inj (List.cons.inj heq).2).1
  rcases hletter with rfl | rfl <;> rcases hd with hd | hd <;> cases hd

theorem passes_escape {b s rest : List Char} {c : Char} (hrest : EndsString rest)
    (h : hidesStart (b ++ c :: s) = false) :
    questionsStart.Passes (Json.escape c) (s.flatMap Json.escape ++ '"' :: rest) := by
  have hbehind (hc : isKeyQuote c = true) (q : Char) (before : List Char) :
      questionsStart.run ⟨before, q :: (s.flatMap Json.escape ++ '"' :: rest), []⟩ = [] :=
    run_of_quote (b := b ++ [c]) q hrest (.inr ⟨c, b, rfl, hc⟩) (by simpa using h) before
  cases hplain : Json.isPlain c with
  | true =>
    rw [Json.escape_plain hplain]
    refine ⟨fun before => ?_, trivial⟩
    cases hc : isKeyQuote c with
    | true => exact hbehind hc c before
    | false => exact run_of_not_quote hc before _
  | false =>
    rcases Json.escape_special hplain with ⟨rfl, hescape⟩ | ⟨rfl, hescape⟩ | ⟨-, hescape⟩
    · rw [hescape]
      exact ⟨fun before => run_of_not_quote rfl before _, hbehind rfl '"', trivial⟩
    · rw [hescape]
      exact passes_of_no_quote (by simp [isKeyQuote]) _
    · obtain ⟨x, t, hcons, hx, ht⟩ := Json.exists_of_isEscape hescape
      rw [hcons]
      refine passes_of_no_quote (fun d hd => ?_) _
      by_contra hquote
      have hne : d = '"' ∨ d = '\'' := by
        simpa only [isKeyQuote, Bool.not_eq_false, Bool.or_eq_true, decide_eq_true_eq] using hquote
      simp only [List.mem_cons] at hd
      rcases hd with rfl | rfl | hd
      · cases hquote rfl
      · rcases hne with rfl | rfl <;> cases hx
      · have hdigit := List.all_eq_true.mp ht d hd
        rcases hne with rfl | rfl <;> cases hdigit

theorem passes_quote {s rest : List Char} (hs : hidesStart s = false) (hrest : EndsString rest) :
    questionsStart.Passes (Json.quote s) rest := by
  have hbody (b s : List Char) (h : hidesStart (b ++ s) = false) :
      questionsStart.Passes (s.flatMap Json.escape ++ ['"']) rest := by
    induction s generalizing b with
    | nil => exact ⟨run_of_string_end hrest, trivial⟩
    | cons c s ih =>
      rw [List.flatMap_cons, List.append_assoc, Pattern.passes_append, List.append_assoc]
      exact ⟨passes_escape hrest h, ih (b ++ [c]) (by simpa using h)⟩
  refine ⟨fun before => ?_, hbody [] s hs⟩
  have hfirst : questionsStart.run ⟨before, '"' :: (s.flatMap Json.escape ++ '"' :: rest), []⟩ =
      [] := run_of_quote (b := []) '"' hrest (.inl rfl) hs before
  simpa using hfirst

theorem endsString_items (xs : List Json) (rest : List Char) :
    EndsString (writeTokens (Json.moreItems xs) ++ rest) := by
  cases xs with
  | nil => exact ⟨']', rest, rfl, .inr rfl⟩
  | cons x xs => exact ⟨',', _, rfl, .inl rfl⟩

theorem passes_items {instructions : List (List Char)}
    (h : ∀ s ∈ instructions, hidesStart s = false) (rest : List Char) :
    questionsStart.Passes (writeTokens (Json.moreItems (instructions.map .string))) rest := by
  induction instructions with
  | nil =>
    exact passes_of_no_quote (by simp [Json.moreItems, writeTokens, Token.text, isKeyQuote]) rest
  | cons s instructions ih =>
    rw [List.forall_mem_cons] at h
    have hsplit : writeTokens (Json.moreItems ((s :: instructions).map .string)) =
        [','] ++ (Json.quote s ++ writeTokens (Json.moreItems (instructions.map .string))) := by
      simp [Json.moreItems, writeTokens, Token.text, Json.tokens]
    rw [hsplit, Pattern.passes_append, Pattern.passes_append]
    exact ⟨passes_of_no_quote (by simp [isKeyQuote]) _,
      passes_quote h.1 (endsString_items _ rest), ih h.2⟩

theorem passes_instructions {instructions : List (List Char)}
    (h : ∀ s ∈ instructions, hidesStart s = false) (rest : List Char) :
    questionsStart.Passes (Json.array (instructions.map .string)).stringify rest := by
  cases instructions with
  | nil =>
    exact passes_of_no_quote (by simp [Json.stringify, Json.tokens, Token.text, isKeyQuote]) rest
  | cons s instructions =>
    rw [List.forall_mem_cons] at h
    have hsplit : (Json.array ((s :: instructions).map .string)).stringify =
        ['['] ++ (Json.quote s ++ writeTokens (Json.moreItems (instructions.map .string))) := by
      simp [Json.stringify, writeTokens, Token.text, Json.tokens]
    rw [hsplit, Pattern.passes_append, Pattern.passes_append]
    exact ⟨passes_of_no_quote (by simp [isKeyQuote]) _,
      passes_quote h.1 (endsString_items _ rest), passes_items h.2 rest⟩

def instructionsKey : List Char := "\x7b\"instructions\":".toList

def questionsKey : List Char := "\"questions\":[".toList

theorem run_questionsStart (before rest : List Char) :
    ∃ r, (questionsStart.run ⟨before, questionsKey ++ rest, []⟩).head? = some r ∧
      r.rest = rest := by
  have hstart : IsStart questionsKey :=
    ⟨'"', "questions".toList, '"', [], [], rfl, rfl,
      List.forall₂_same.mpr fun c _ => by simp [Pattern.isLetter], rfl, List.forall_mem_nil _,
      List.forall_mem_nil _⟩
  have hne : questionsStart.run ⟨before, questionsKey ++ rest, []⟩ ≠ [] := fun hnil =>
    run_questionsStart_eq_nil.mp hnil _ rest rfl hstart
  obtain ⟨r, hr⟩ := Option.isSome_iff_exists.mp (List.isSome_head?.mpr hne)
  have hrests : questionsStart.rests questionsKey = some [[]] := by decide
  obtain ⟨k, hk, hrest⟩ := Pattern.rests_sound hrests rfl (List.mem_of_head? hr)
  rw [List.mem_singleton.mp hk] at hrest
  exact ⟨r, hr, hrest⟩

end Start

section Papers
variable {round : Decimal → Decimal}

def writtenPaper (instructions : List (List Char)) (questions : List Json) : Json :=
  .object [("instructions".toList, .array (instructions.map .string)),
    ("questions".toList, .array questions)]

def paperLead (instructions : List (List Char)) : List Char :=
  instructionsKey ++ ((Json.array (instructions.map .string)).stringify ++
    (',' :: questionsKey))

def presentQuestions (instructions : List (List Char)) (questions : List Json) (n : ℕ) :
    List Json :=
  wholeQuestions (n-units (paperLead instructions)) questions

theorem stringify_pair (k k' : List Char) (v question : Json) (questions : List Json) :
    (Json.object [(k, v), (k', .array (question :: questions))]).stringify =
      writeTokens [.openObject, .string k, .colon] ++ (v.stringify ++
        (',' :: writeTokens [.string k', .colon, .openArray])) ++ (question.stringify ++
          (writeTokens (Json.moreItems questions) ++ ['\x7d'])) := by
  simp [Json.stringify, Json.tokens, Json.moreMembers, writeTokens, Token.text]

theorem stringify_writtenPaper (instructions : List (List Char)) (question : Json)
    (questions : List Json) :
    (writtenPaper instructions (question :: questions)).stringify = paperLead instructions ++
      (question.stringify ++ (writeTokens (Json.moreItems questions) ++ ['\x7d'])) := by
  have hlead : writeTokens [.openObject, .string "instructions".toList, .colon] =
      instructionsKey := by decide
  have hstart : writeTokens [.string "questions".toList, .colon, .openArray] = questionsKey := by
    decide
  rw [writtenPaper, stringify_pair, hlead, hstart, paperLead]

theorem exec_paperLead {instructions : List (List Char)}
    (h : ∀ s ∈ instructions, hidesStart s = false) (rest : List Char) :
    ∃ r, questionsStart.exec (paperLead instructions ++ rest) = some r ∧ r.rest = rest := by
  have hfails : questionsStart.fails instructionsKey = true := by decide
  have hpasses : questionsStart.Passes (instructionsKey ++
      ((Json.array (instructions.map .string)).stringify ++ [',']))
        (questionsKey ++ rest) := by
    rw [Pattern.passes_append, Pattern.passes_append]
    exact ⟨.of_fails hfails _, passes_instructions h _, passes_of_no_quote (by simp [isKeyQuote]) _⟩
  have hsplit : paperLead instructions ++ rest = instructionsKey ++
      ((Json.array (instructions.map .string)).stringify ++ [',']) ++
        (questionsKey ++ rest) := by
    rw [paperLead]
    simp only [List.append_assoc, List.cons_append, List.nil_append]
  obtain ⟨r, hr, hrest⟩ := run_questionsStart ((instructionsKey ++
      ((Json.array (instructions.map .string)).stringify ++ [','])).reverse ++ []) rest
  refine ⟨r, ?_, hrest⟩
  rw [hsplit, Pattern.exec, Pattern.execFrom_of_passes hpasses]
  obtain ⟨t, ht⟩ : ∃ t, questionsKey = '"' :: t := ⟨_, rfl⟩
  rw [ht, List.cons_append] at hr ⊢
  rw [Pattern.execFrom, hr, Option.some_or]

theorem normalize_found (questions : List Json) :
    normalizeGeneratedPaper (.object [("instructions".toList, .array []),
      ("questions".toList, .array questions)]) = normalizeGeneratedPaper (.array questions) := by
  rfl

/-- Of a text that is cut behind its first question and before the end of its last, the questions
that are whole are recovered, if no instruction hides their start. -/
theorem recoverCompleteQuestions_cut {instructions : List (List Char)} {questions : List Json}
    (hobjects : ∀ q ∈ questions, ∃ members, q = .object members)
    (hproper : Json.ProperItems round questions)
    (hplain : ∀ s ∈ instructions, hidesStart s = false) {n : ℕ}
    (hsome : presentQuestions instructions questions n ≠ [])
    (hcut : presentQuestions instructions questions n ≠ questions) :
    recoverCompleteQuestions round (cutUnits n (writtenPaper instructions questions).stringify) =
      some (normalizeGeneratedPaper (.array (presentQuestions instructions questions n))) := by
  cases questions with
  | nil => exact absurd rfl hcut
  | cons question questions =>
    have hlead : units (paperLead instructions) ≤ n := by
      by_contra h
      have hzero : n-units (paperLead instructions) = 0 := by omega
      have hpos := units_question_pos (hobjects question List.mem_cons_self)
      refine hsome ?_
      rw [presentQuestions, hzero, wholeQuestions]
      exact if_neg (by omega)
    have hrun := run_questions hobjects hproper hcut [] [] ['\x7d']
    obtain ⟨r, hr, hrest⟩ := exec_paperLead hplain (cutUnits (n-units (paperLead instructions))
      (question.stringify ++ (writeTokens (Json.moreItems questions) ++ ['\x7d'])))
    have hfound : QuestionScan.initial.run round r.rest =
        presentQuestions instructions (question :: questions) n := by
      rw [hrest]
      exact hrun
    have hnonempty : (presentQuestions instructions (question :: questions) n).isEmpty = false := by
      simpa using hsome
    rw [stringify_writtenPaper, cutUnits_append hlead, recoverCompleteQuestions, hr,
      Option.bind_some, hfound]
    simp only [hnonempty, Bool.false_eq_true, if_false, normalize_found]

/-- An instruction with braces and the word, and a cut in the second question. -/
theorem recoverCompleteQuestions_sample :
    recoverCompleteQuestions id
      (cutUnits 75 (writtenPaper ["See \"questions\": [\x7b".toList] twoQuestions).stringify) =
        some (normalizeGeneratedPaper (.array (twoQuestions.take 1))) := by
  have hobjects : ∀ q ∈ twoQuestions, ∃ members, q = .object members := by
    simp [twoQuestions]
  have hproper : Json.ProperItems id twoQuestions :=
    ⟨⟨by decide, trivial, trivial⟩, ⟨by decide, trivial, trivial⟩, trivial⟩
  have hplain : ∀ s ∈ ["See \"questions\": [\x7b".toList], hidesStart s = false := by
    rw [List.forall_mem_singleton]
    decide
  have hpresent : presentQuestions ["See \"questions\": [\x7b".toList] twoQuestions 75 =
      twoQuestions.take 1 := rfl
  have hrecovered := recoverCompleteQuestions_cut (n := 75) hobjects hproper hplain
    (by rw [hpresent]; exact List.cons_ne_nil _ _) (by rw [hpresent]; simp [twoQuestions])
  rwa [hpresent] at hrecovered

/-- An instruction that is taken for the list. -/
theorem instruction_taken_for_questions :
    presentQuestions ["'questions': [1]".toList] twoQuestions 75 = twoQuestions.take 1 ∧
      recoverCompleteQuestions id
        (cutUnits 75 (writtenPaper ["'questions': [1]".toList] twoQuestions).stringify) ≠
          some (normalizeGeneratedPaper (.array (twoQuestions.take 1))) := by
  have hnone : recoverCompleteQuestions id
      (cutUnits 75 (writtenPaper ["'questions': [1]".toList] twoQuestions).stringify) = none := by
    rfl
  refine ⟨rfl, ?_⟩
  rw [hnone]
  simp

end Papers

end Cinder.Worksheets
