import Cinder.Papers.AiUsage
import Cinder.Streams.DecimalTexts
import Mathlib.Logic.Function.Basic
set_option autoImplicit false

namespace Cinder.Papers
open Cinder.Host Cinder.HostClient Cinder.Programs Cinder.Storage Cinder.Streams

def putSetting (settings : String → Option String) (key value : String) : String → Option String :=
  Function.update settings key (some value)

/-- `None` or zero removes the limit. -/
def setMonthlyTokenLimit (settings : String → Option String) (limit : Option Int) :
    Except HostError (String → Option String) :=
  if limit.any fun limit => limit < 0 then
    .error (.badRequest "The monthly limit cannot be negative.")
  else
    let stored := (limit.filter fun limit => limit > 0).map fun limit => toString limit
    .ok (putSetting settings "ai.monthly_token_limit" (stored.getD ""))

/-- A call of `record_ai_usage` that is carried out. -/
structure RecordedUse where
  userId : Uuid
  operation : String
  provider : String
  model : String
  usage : TokenUsage
  now : String
  deriving DecidableEq, Repr

def RecordedUse.row (u : RecordedUse) : AiUsageRow :=
  ⟨u.userId, u.operation, u.provider, u.model, toSql u.usage.inputTokens,
    toSql u.usage.outputTokens, u.now⟩

inductive AllowanceStep where
  | setLimit (limit : Option I64)
  | record (u : RecordedUse)

structure AllowanceState where
  settings : String → Option String
  usage : List AiUsageRow

def afterStep (s : AllowanceState) : AllowanceStep → AllowanceState
  | .setLimit limit => match setMonthlyTokenLimit s.settings (limit.map (·.1)) with
    | .ok settings => { s with settings }
    | .error _ => s
  | .record u => { s with usage := s.usage ++ [u.row] }

def afterSteps (steps : List AllowanceStep) : AllowanceState :=
  steps.foldl afterStep ⟨fun _ => none, []⟩

def grant (granted : Option Int) : AllowanceStep → Option Int
  | .setLimit none => none
  | .setLimit (some limit) =>
    if limit.1 < 0 then granted else if limit.1 = 0 then none else some limit.1
  | .record _ => granted

def grantedLimit (steps : List AllowanceStep) : Option Int := steps.foldl grant none

def recordedUse? : AllowanceStep → Option RecordedUse
  | .setLimit _ => none
  | .record u => some u

/-- What was used in the month, with each count as it was reported or as it is stored. -/
def usedInMonth (count : Nat → Nat) (now : String) (steps : List AllowanceStep) : Nat :=
  let uses := (steps.filterMap recordedUse?).filter fun u => u.now.toList.take 7 = now.toList.take 7
  (uses.map fun u => count u.usage.inputTokens + count u.usage.outputTokens).sum

def allowanceSpent : HostError := .badRequest ("The school has used this month's AI allowance. " ++
  "Whoever runs Cinder Host can raise it under Settings → AI provider.")

def Decided (now : String) (steps : List AllowanceStep) : Prop :=
  requireAiAllowance (afterSteps steps).settings now (afterSteps steps).usage =
    if (grantedLimit steps).all fun limit => (usedInMonth id now steps : Int) < limit then .ok ()
    else .error allowanceSpent

/-- Without a limit nothing is summed. Otherwise the stored counts of the month, each at most
2^63-1, come to at most 2^63-1. -/
def SumFits (now : String) (steps : List AllowanceStep) : Prop :=
  grantedLimit steps = none ∨ usedInMonth toSql now steps ≤ maxI64

theorem foldl_digits (s : List Char) (n : Nat) :
    s.foldl (fun n c => n*10 + (c.toNat - 48)) n = Nat.ofDigitChars 10 s n := by
  induction s generalizing n with
  | nil => rfl
  | cons c s ih => rw [List.foldl_cons, ih, Nat.ofDigitChars_cons, Nat.mul_comm]; rfl

theorem readDigits_eq (s : List Char) : readDigits s = readDecimal s := by
  have hiff : (s ≠ [] ∧ s.all Char.isDigit = true) ↔ IsDecimal s := by simp [IsDecimal]
  exact if_congr hiff (by rw [foldl_digits]) rfl

theorem parseI64_toString {n : Int} (hpos : 0 < n) (hn : FitsI64 n) :
    parseI64 (toString n) = some n := by
  obtain ⟨m, rfl⟩ := Int.eq_ofNat_of_zero_le hpos.le
  have htext : (toString (m : Int)).toList = Nat.toDigits 10 m := Nat.toList_repr
  have hdigits := isDecimal_toDigits m
  unfold parseI64
  rw [htext]
  split
  · next heq => exact absurd (heq ▸ List.mem_cons_self) (hdigits.not_mem rfl)
  · next heq => exact absurd (heq ▸ List.mem_cons_self) (hdigits.not_mem rfl)
  · have hm : m ≤ maxI64 := by
      unfold FitsI64 at hn
      unfold maxI64
      omega
    rw [readDigits_eq, readDecimal_toDigits, Option.bind_some, if_pos hm]

theorem monthlyTokenLimit_put (settings : String → Option String) (value : String) :
    monthlyTokenLimit (putSetting settings "ai.monthly_token_limit" value) =
      (((some value).filter fun value => value ≠ "").bind parseI64).filter fun limit => limit > 0 := by
  rw [monthlyTokenLimit, getSetting, putSetting, Function.update_self]

theorem monthlyTokenLimit_afterStep (s : AllowanceState) (step : AllowanceStep) :
    monthlyTokenLimit (afterStep s step).settings = grant (monthlyTokenLimit s.settings) step := by
  cases step with
  | record u => rfl
  | setLimit limit =>
    cases limit with
    | none => exact monthlyTokenLimit_put s.settings ""
    | some limit =>
      obtain ⟨n, hn⟩ := limit
      rcases lt_trichotomy n 0 with hneg | rfl | hpos
      · have hset : setMonthlyTokenLimit s.settings (some n) =
            .error (.badRequest "The monthly limit cannot be negative.") :=
          if_pos (by simp [hneg])
        simp only [afterStep, Option.map_some, hset, grant, if_pos hneg]
      · exact monthlyTokenLimit_put s.settings ""
      · have hset : setMonthlyTokenLimit s.settings (some n) =
            .ok (putSetting s.settings "ai.monthly_token_limit" (toString n)) := by
          unfold setMonthlyTokenLimit
          rw [if_neg (by simp [hpos.le]), Option.filter_some_pos (by simp [hpos])]
          rfl
        have hread := parseI64_toString hpos hn
        have htext : toString n ≠ "" := by
          intro hempty
          rw [hempty] at hread
          cases hread
        simp only [afterStep, Option.map_some, hset, monthlyTokenLimit_put, grant,
          if_neg hpos.not_gt, if_neg hpos.ne']
        rw [Option.filter_some_pos (by simpa using htext), Option.bind_some, hread,
          Option.filter_some_pos (by simp [hpos])]

theorem monthlyTokenLimit_afterSteps (steps : List AllowanceStep) :
    monthlyTokenLimit (afterSteps steps).settings = grantedLimit steps :=
  (List.foldl_hom (fun s : AllowanceState => monthlyTokenLimit s.settings)
    fun s step => (monthlyTokenLimit_afterStep s step).symm).symm

theorem usage_foldl (steps : List AllowanceStep) (s : AllowanceState) :
    (steps.foldl afterStep s).usage =
      s.usage ++ (steps.filterMap recordedUse?).map RecordedUse.row := by
  induction steps generalizing s with
  | nil => simp
  | cons step steps ih =>
    rw [List.foldl_cons, ih]
    cases step with
    | setLimit limit =>
      have hsame : (afterStep s (.setLimit limit)).usage = s.usage := by
        simp only [afterStep]
        split
        · rfl
        · rfl
      rw [hsame]
      rfl
    | record u => simp [afterStep, recordedUse?]

theorem tokensThisMonth_afterSteps (now : String) (steps : List AllowanceStep) :
    (usedInMonth toSql now steps ≤ maxI64 ∧ tokensThisMonth now (afterSteps steps).usage =
        .ok (usedInMonth toSql now steps)) ∨
      maxI64 < usedInMonth toSql now steps ∧
        ∃ e, tokensThisMonth now (afterSteps steps).usage = .error (.database e) := by
  have hrows : (((afterSteps steps).usage.filter fun row =>
        row.createdAt.toList.take 7 = now.toList.take 7).map fun row =>
          (row.inputTokens, row.outputTokens)).map (fun row => row.1 + row.2) =
      ((steps.filterMap recordedUse?).filter fun u =>
        u.now.toList.take 7 = now.toList.take 7).map fun u =>
          toSql u.usage.inputTokens + toSql u.usage.outputTokens := by
    rw [afterSteps, usage_foldl, List.nil_append, List.filter_map, List.map_map, List.map_map]
    rfl
  unfold tokensThisMonth usedInMonth
  rcases Nat.lt_or_ge maxI64 (((steps.filterMap recordedUse?).filter fun u =>
    u.now.toList.take 7 = now.toList.take 7).map fun u =>
      toSql u.usage.inputTokens + toSql u.usage.outputTokens).sum with hlarge | hfits
  · right
    obtain ⟨e, he⟩ := SqlNumber.sumOfSums_overflow (hrows ▸ hlarge)
    exact ⟨hlarge, e, by dsimp only; rw [he]; rfl⟩
  · left
    have hsum := SqlNumber.sumOfSums_fits (hrows ▸ hfits)
    rw [hrows] at hsum
    exact ⟨hfits, by dsimp only; rw [hsum]; rfl⟩

/-- Where a limit separates what is stored from what was reported, it is exceeded by both. -/
theorem usedInMonth_stored (now : String) (steps : List AllowanceStep) :
    usedInMonth toSql now steps ≤ usedInMonth id now steps ∧
      (usedInMonth toSql now steps = usedInMonth id now steps ∨
        maxI64 ≤ usedInMonth toSql now steps) := by
  unfold usedInMonth
  dsimp only
  induction (steps.filterMap recordedUse?).filter fun u =>
    u.now.toList.take 7 = now.toList.take 7 with
  | nil => exact ⟨Nat.le_refl _, .inl rfl⟩
  | cons u uses ih =>
    have hcapped : ∀ n, toSql n = n ∨ (toSql n = maxI64 ∧ maxI64 ≤ n) := by
      intro n
      unfold toSql
      split
      · exact .inl rfl
      · exact .inr ⟨rfl, by omega⟩
    simp only [List.map_cons, List.sum_cons, id]
    have hinput := hcapped u.usage.inputTokens
    have houtput := hcapped u.usage.outputTokens
    simp only [id] at ih
    omega

theorem parseI64_le {s : String} {n : Int} (h : parseI64 s = some n) : n ≤ maxI64 := by
  unfold parseI64 at h
  split at h
  all_goals
    obtain ⟨m, -, hm⟩ := Option.bind_eq_some_iff.mp h
    split at hm
    · cases hm
      omega
    · cases hm

theorem grantedLimit_le {steps : List AllowanceStep} {limit : Int}
    (h : grantedLimit steps = some limit) : limit ≤ maxI64 := by
  rw [← monthlyTokenLimit_afterSteps] at h
  obtain ⟨text, -, hparse⟩ := Option.bind_eq_some_iff.mp (Option.filter_eq_some_iff.mp h).1
  exact parseI64_le hparse

/-- After any sequence of limits and recorded uses, the allowance is decided by what was
really used if and only if no limit stands or the stored counts of the month can be summed. -/
theorem ai_allowance_decided_iff (now : String) (steps : List AllowanceStep) :
    Decided now steps ↔ SumFits now steps := by
  unfold Decided SumFits requireAiAllowance
  rw [monthlyTokenLimit_afterSteps]
  cases hlimit : grantedLimit steps with
  | none => exact iff_of_true rfl (.inl rfl)
  | some limit =>
    have hlow := grantedLimit_le hlimit
    obtain ⟨hle, hsame⟩ := usedInMonth_stored now steps
    have hcompare : (usedInMonth id now steps : Int) < limit ↔
        ¬(usedInMonth toSql now steps : Int) ≥ limit := by omega
    rcases tokensThisMonth_afterSteps now steps with ⟨hfits, htokens⟩ | ⟨hlarge, e, htokens⟩
    · refine iff_of_true ?_ (.inr hfits)
      simp only [htokens, Option.all_some, hcompare]
      by_cases hspent : (usedInMonth toSql now steps : Int) ≥ limit
      · simp [hspent, allowanceSpent]
      · simp [hspent]
    · refine iff_of_false ?_ (by simp; omega)
      simp only [htokens]
      split <;> simp [allowanceSpent]

def sampleSteps : List AllowanceStep :=
  [.setLimit (some ⟨1000, by decide⟩),
    .record ⟨1, "paper_search", "google", "gemini-2.5-flash", ⟨18446744073709551615, 1⟩,
      "2026-05-01T00:00:01+00:00"⟩]

/-- The use is over the limit, but the answer is an error of the database. -/
theorem allowance_not_decided :
    requireAiAllowance (afterSteps sampleSteps).settings "2026-05-02T00:00:00+00:00"
        (afterSteps sampleSteps).usage = .error (.database .invalidColumnType) ∧
      ¬Decided "2026-05-02T00:00:00+00:00" sampleSteps := by
  have hanswer : requireAiAllowance (afterSteps sampleSteps).settings "2026-05-02T00:00:00+00:00"
      (afterSteps sampleSteps).usage = .error (.database .invalidColumnType) := by decide +kernel
  refine ⟨hanswer, fun h => ?_⟩
  rw [Decided, hanswer] at h
  split at h
  · cases h
  · cases h

end Cinder.Papers
