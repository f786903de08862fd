import Cinder.Worksheets.PaperSpecs
set_option autoImplicit false

/-!
What holds of every paper that a model's answer is made into, and when its questions have different
ids: an id that the answer gives is taken as it is.
-/

namespace Cinder.Worksheets
open Cinder.Streams Cinder.Ecma

structure PaperSubpart.WellFormed (part : PaperSubpart) : Prop where
  prompt : part.prompt ≠ []
  marks : 1 ≤ part.marks ∧ part.marks ≤ 50
  workingLines : 0 ≤ part.workingLines ∧ part.workingLines ≤ 12

structure PaperQuestion.WellFormed (question : PaperQuestion) : Prop where
  id : question.id ≠ []
  prompt : question.prompt ≠ []
  subparts : question.subparts.length ≤ 12
  wellFormed_subparts : ∀ part ∈ question.subparts, part.WellFormed
  marks : question.subparts = [] → 1 ≤ question.marks ∧ question.marks ≤ 100
  marks_sum : question.subparts ≠ [] → question.marks = (question.subparts.map (·.marks)).sum
  workingLines : 0 ≤ question.workingLines ∧ question.workingLines ≤ 14

structure GeneratedPaper.WellFormed (paper : GeneratedPaper) : Prop where
  questions : paper.questions ≠ []
  length : paper.questions.length ≤ 50
  wellFormed_questions : ∀ question ∈ paper.questions, question.WellFormed
  distinct : (paper.questions.map (·.id)).Nodup

section Bounds

theorem numeric_bounds (value : Option Json) (fallback minimum maximum : ℚ)
    (hlow : minimum ≤ fallback) (hhigh : fallback ≤ maximum) :
    minimum ≤ numeric value fallback minimum maximum ∧
      numeric value fallback minimum maximum ≤ maximum := by
  unfold numeric
  split
  · exact ⟨hlow, hhigh⟩
  · exact ⟨le_max_left _ _, max_le (hlow.trans hhigh) (min_le_left _ _)⟩

theorem defaultWorkingLines_bounds (marks : ℚ) :
    0 ≤ defaultWorkingLines marks ∧ defaultWorkingLines marks ≤ 14 := by
  unfold defaultWorkingLines
  split
  · norm_num
  split <;> norm_num

theorem wellFormed_subpart {item : Json} {index : ℕ} {part : PaperSubpart}
    (h : normalizeSubpart item index = some part) : part.WellFormed := by
  simp only [normalizeSubpart] at h
  split at h
  · cases h
  · next hkept =>
    cases h
    rw [Bool.or_eq_true, not_or] at hkept
    refine ⟨?_, numeric_bounds (field item "marks") 1 1 50 le_rfl (by norm_num),
      numeric_bounds (workingLinesField item) 3 0 12 (by norm_num) (by norm_num)⟩
    simpa using hkept.2

theorem wellFormed_subparts (value : Option Json) :
    (normalizeSubparts value).length ≤ 12 ∧
      ∀ part ∈ normalizeSubparts value, part.WellFormed := by
  constructor
  · refine (List.length_filterMap_le _ _).trans ?_
    rw [List.length_zipIdx, List.length_take]
    exact min_le_left _ _
  · intro part hpart
    obtain ⟨p, -, hp⟩ := List.mem_filterMap.mp hpart
    exact wellFormed_subpart hp

theorem safeId_ne_nil (index : ℕ) : safeId index ≠ [] :=
  List.append_ne_nil_of_left_ne_nil (by decide) _

theorem utf16_safeId (index : ℕ) :
    utf16 (safeId index) = (safeId index).map Char.toNat := by
  refine utf16_of_small fun c hc => ?_
  rcases List.mem_append.mp hc with hc | hc
  · have hall : "question-".toList.all (fun c => c.toNat < 0x10000) = true := by decide
    simpa using List.all_eq_true.mp hall c hc
  · have hdigit := Nat.isDigit_of_mem_toDigits (by decide) (by decide) hc
    simp only [Char.isDigit, Bool.and_eq_true, decide_eq_true_eq] at hdigit
    exact lt_of_le_of_lt hdigit.2 (by decide)

theorem utf16_safeId_ne_nil (index : ℕ) : utf16 (safeId index) ≠ [] := by
  rw [utf16_safeId]
  exact mt List.map_eq_nil_iff.mp (safeId_ne_nil index)

theorem questionId_ne_nil (item : Json) (index : ℕ) : questionId item index ≠ [] := by
  rw [questionId]
  split
  · exact utf16_safeId_ne_nil index
  · assumption

theorem wellFormed_question {item : Json} {index : ℕ} {question : PaperQuestion}
    (h : normalizeQuestion item index = some question) : question.WellFormed := by
  simp only [normalizeQuestion] at h
  split at h
  · cases h
  · next hkept =>
    cases h
    rw [Bool.or_eq_true, not_or] at hkept
    obtain ⟨hlength, hparts⟩ :=
      wellFormed_subparts (orElse (field item "subparts") (field item "parts"))
    obtain ⟨hlow, hhigh⟩ := defaultWorkingLines_bounds
      (if normalizeSubparts (orElse (field item "subparts") (field item "parts")) = [] then
        numeric (field item "marks") 1 1 100
      else ((normalizeSubparts (orElse (field item "subparts") (field item "parts"))).map
        (·.marks)).sum)
    refine ⟨questionId_ne_nil item index, ?_, hlength, hparts, fun hnil => ?_, fun hne => ?_,
      numeric_bounds (workingLinesField item) _ 0 14 hlow hhigh⟩
    · simpa using hkept.2
    · rw [if_pos hnil]
      exact numeric_bounds (field item "marks") 1 1 100 le_rfl (by norm_num)
    · rw [if_neg hne]

theorem wellFormed_questions (items : List Json) :
    (normalizeQuestions items).length ≤ 50 ∧
      ∀ question ∈ normalizeQuestions items, question.WellFormed := by
  constructor
  · refine (List.length_filterMap_le _ _).trans ?_
    rw [List.length_zipIdx, List.length_take]
    exact min_le_left _ _
  · intro question hquestion
    obtain ⟨p, -, hp⟩ := List.mem_filterMap.mp hquestion
    exact wellFormed_question hp

theorem normalizeGeneratedPaper_ok {value : Json} {paper : GeneratedPaper}
    (h : normalizeGeneratedPaper value = .ok paper) :
    ∃ items, items? (field (paperCandidate (paperRoot value)) "questions") = some items ∧
      normalizeQuestions items ≠ [] ∧ paper.questions = normalizeQuestions items := by
  simp only [normalizeGeneratedPaper] at h
  split at h
  · cases h
  split at h
  · cases h
  · next items hitems =>
    split at h
    · cases h
    · next hne =>
      cases h
      exact ⟨items, hitems, hne, rfl⟩

end Bounds

section Ids

def ownId (item : Json) : Option (List ℕ) :=
  let id := (utf16 (cleanModelText (field item "id") [])).take 80
  if id = [] then none else some id

def IsUsable (item : Json) : Prop := isObject item = true ∧ takeUnits 8000 (promptOf item) ≠ []

/-- Of two items with prompts, neither has the id of the other, given or by its place. -/
def IdsDiffer (p q : Json × ℕ) : Prop :=
  IsUsable p.1 → IsUsable q.1 →
    (ownId p.1 = none ∨ ownId p.1 ≠ ownId q.1) ∧
    (ownId q.1 = none → ownId p.1 ≠ some (utf16 (safeId q.2))) ∧
    (ownId p.1 = none → ownId q.1 ≠ some (utf16 (safeId p.2)))

def questionItems (value : Json) : List (Json × ℕ) :=
  (((items? (field (paperCandidate (paperRoot value)) "questions")).getD []).take 50).zipIdx

theorem safeId_inj {i j : ℕ} (h : utf16 (safeId i) = utf16 (safeId j)) : i = j := by
  rw [utf16_safeId, utf16_safeId] at h
  have hsame := List.map_injective_iff.mpr (fun c d => Char.toNat_inj.mp) h
  have hdigits := congrArg readDecimal (List.append_cancel_left hsame)
  rw [readDecimal_toDigits, readDecimal_toDigits] at hdigits
  exact Nat.succ.inj (Option.some.inj hdigits)

theorem take_safeId {index : ℕ} (h : index < 50) :
    (utf16 (safeId index)).take 80 = utf16 (safeId index) := by
  have hall : (List.range 50).all (fun i => (utf16 (safeId i)).length ≤ 80) = true := by
    decide +kernel
  exact List.take_of_length_le (by simpa using List.all_eq_true.mp hall index (List.mem_range.mpr h))

theorem cleanModelText_cases (value : Option Json) :
    (∃ s, ∀ fallback, cleanModelText value fallback = cleanText s) ∨
      ∀ fallback, cleanModelText value fallback = fallback := by
  cases value with
  | none => exact .inr fun _ => rfl
  | some v =>
    cases v with
    | string s => exact .inl ⟨s, fun _ => rfl⟩
    | _ => exact .inr fun _ => rfl

theorem questionId_eq (item : Json) {index : ℕ} (h : index < 50) :
    questionId item index = (ownId item).getD (utf16 (safeId index)) := by
  simp only [questionId, ownId]
  rcases cleanModelText_cases (field item "id") with ⟨s, hs⟩ | hother
  · rw [hs, hs]
    split <;> rfl
  · rw [hother, hother, take_safeId h, if_neg (utf16_safeId_ne_nil index)]
    rfl

theorem isUsable_of_normalizeQuestion {item : Json} {index : ℕ} {question : PaperQuestion}
    (h : normalizeQuestion item index = some question) :
    IsUsable item ∧ question.id = questionId item index := by
  simp only [normalizeQuestion] at h
  split at h
  · cases h
  · next hkept =>
    cases h
    rw [Bool.or_eq_true, not_or] at hkept
    refine ⟨⟨by simpa using hkept.1, ?_⟩, rfl⟩
    simpa using hkept.2

theorem exists_normalizeQuestion {item : Json} (h : IsUsable item) (index : ℕ) :
    ∃ question, normalizeQuestion item index = some question ∧
      question.id = questionId item index := by
  have hkept : (!isObject item || (takeUnits 8000 (promptOf item)).isEmpty) = false := by
    simp [h.1, h.2]
  refine ⟨_, if_neg (by simp [hkept]), rfl⟩

theorem questions_eq {items : List Json} {value : Json} {paper : GeneratedPaper}
    (hitems : items? (field (paperCandidate (paperRoot value)) "questions") = some items)
    (hpaper : paper.questions = normalizeQuestions items) :
    paper.questions =
      (questionItems value).filterMap fun p => normalizeQuestion p.1 p.2 := by
  rw [hpaper, questionItems, hitems]
  rfl

/-- Two different places have different ids if and only if neither takes the other's. -/
theorem getD_ne_iff {a b : Option (List ℕ)} {i j : ℕ} (hij : i ≠ j) :
    a.getD (utf16 (safeId i)) ≠ b.getD (utf16 (safeId j)) ↔
      (a = none ∨ a ≠ b) ∧ (b = none → a ≠ some (utf16 (safeId j))) ∧
        (a = none → b ≠ some (utf16 (safeId i))) := by
  have hplaces : utf16 (safeId i) ≠ utf16 (safeId j) := fun h => hij (safeId_inj h)
  cases a with
  | none =>
    cases b with
    | none => simpa using hplaces
    | some t => simp [eq_comm]
  | some s =>
    cases b with
    | none => simp
    | some t => simp

/-- The ids differ if and only if no item gives the id of another, nor the one that another without
an id has by its place. -/
theorem ids_nodup_iff (items : List (Json × ℕ)) (hplaces : items.Pairwise fun p q => p.2 ≠ q.2)
    (hbound : ∀ p ∈ items, p.2 < 50) :
    ((items.filterMap fun p => normalizeQuestion p.1 p.2).map (·.id)).Nodup ↔
      items.Pairwise IdsDiffer := by
  rw [List.Nodup, List.pairwise_map, List.pairwise_filterMap]
  have hpair : ∀ p ∈ items, ∀ q ∈ items, p.2 ≠ q.2 →
      ((∀ question, normalizeQuestion p.1 p.2 = some question →
        ∀ question', normalizeQuestion q.1 q.2 = some question' → question.id ≠ question'.id) ↔
          IdsDiffer p q) := by
    intro p hp q hq hne
    have hids := getD_ne_iff (a := ownId p.1) (b := ownId q.1) hne
    rw [← questionId_eq p.1 (hbound p hp), ← questionId_eq q.1 (hbound q hq)] at hids
    rw [IdsDiffer, ← hids]
    constructor
    · intro h husable husable'
      obtain ⟨question, hquestion, hid⟩ := exists_normalizeQuestion husable p.2
      obtain ⟨question', hquestion', hid'⟩ := exists_normalizeQuestion husable' q.2
      rw [← hid, ← hid']
      exact h question hquestion question' hquestion'
    · intro h question hquestion question' hquestion'
      obtain ⟨husable, hid⟩ := isUsable_of_normalizeQuestion hquestion
      obtain ⟨husable', hid'⟩ := isUsable_of_normalizeQuestion hquestion'
      rw [hid, hid']
      exact h husable husable'
  constructor
  · intro h
    refine List.Pairwise.imp_of_mem ?_ (h.and hplaces)
    exact fun hp hq hboth => (hpair _ hp _ hq hboth.2).mp hboth.1
  · intro h
    refine List.Pairwise.imp_of_mem ?_ (h.and hplaces)
    exact fun hp hq hboth => (hpair _ hp _ hq hboth.2).mpr hboth.1

theorem questionItems_places (value : Json) :
    (questionItems value).Pairwise (fun p q => p.2 ≠ q.2) ∧
      ∀ p ∈ questionItems value, p.2 < 50 := by
  constructor
  · rw [List.pairwise_iff_getElem]
    intro i j hi hj hij
    simp only [questionItems, List.getElem_zipIdx]
    omega
  · intro p hp
    have hlt := List.snd_lt_of_mem_zipIdx hp
    rw [List.length_take] at hlt
    omega

end Ids

/-- A paper that is made of an answer is well formed if and only if the answer gives no id twice. -/
theorem normalizeGeneratedPaper_wellFormed_iff {value : Json} {paper : GeneratedPaper}
    (h : normalizeGeneratedPaper value = .ok paper) :
    paper.WellFormed ↔ (questionItems value).Pairwise IdsDiffer := by
  obtain ⟨items, hitems, hne, hquestions⟩ := normalizeGeneratedPaper_ok h
  obtain ⟨hlength, hwell⟩ := wellFormed_questions items
  obtain ⟨hplaces, hbound⟩ := questionItems_places value
  rw [← ids_nodup_iff (questionItems value) hplaces hbound, ← questions_eq hitems hquestions]
  refine ⟨fun hpaper => hpaper.distinct, fun hdistinct => ⟨?_, ?_, ?_, hdistinct⟩⟩
  · rw [hquestions]
    exact hne
  · rw [hquestions]
    exact hlength
  · rw [hquestions]
    exact hwell

def plainQuestion (id prompt : List Char) : PaperQuestion :=
  ⟨utf16 id, prompt, 1, [], 2, [], none, [], some emptyScheme⟩

def givenQuestion (id prompt : String) : Json :=
  .object [("id".toList, .string id.toList), ("prompt".toList, .string prompt.toList)]

theorem normalizeGeneratedPaper_wellFormed_iff_sample :
    GeneratedPaper.WellFormed ⟨[], [plainQuestion "p".toList "a".toList,
        plainQuestion "q".toList "b".toList]⟩ ↔
      (questionItems (.array [givenQuestion "p" "a", givenQuestion "q" "b"])).Pairwise IdsDiffer :=
  normalizeGeneratedPaper_wellFormed_iff (by decide +kernel)

/-- Two questions keep the id that both were given. -/
theorem id_given_twice :
    normalizeGeneratedPaper (.array [givenQuestion "q" "a", givenQuestion "q" "b"]) =
        .ok ⟨[], [plainQuestion "q".toList "a".toList, plainQuestion "q".toList "b".toList]⟩ ∧
      ¬ GeneratedPaper.WellFormed ⟨[], [plainQuestion "q".toList "a".toList,
        plainQuestion "q".toList "b".toList]⟩ :=
  ⟨by decide +kernel, fun h => absurd h.distinct (by decide)⟩

end Cinder.Worksheets
