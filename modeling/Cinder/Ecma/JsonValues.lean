import Cinder.Ecma.Decimals
import Cinder.Storage.OrderedEntries
import Mathlib.Data.List.Chain
set_option autoImplicit false

namespace Cinder.Ecma
open Cinder.Storage

inductive Json where
  | null
  | boolean (b : Bool)
  | number (d : Decimal)
  | string (s : List Char)
  | array (items : List Json)
  | object (members : List (List Char × Json))

inductive Token where
  | openArray
  | closeArray
  | openObject
  | closeObject
  | comma
  | colon
  | null
  | boolean (b : Bool)
  | number (d : Decimal)
  | string (s : List Char)
  deriving DecidableEq, Repr

def Token.starts : Token → Bool
  | closeArray | closeObject | comma | colon => false
  | _ => true

namespace Token

def mapString (f : List Char → List Char) : Token → Token
  | string s => string (f s)
  | t => t

def textLength : Token → ℕ
  | string s => s.length
  | _ => 0

def ends : Token → Bool
  | openArray | openObject | comma | colon => false
  | _ => true

/-- What may stand behind a token in the text of a value. -/
def mayFollow (t u : Token) : Bool :=
  match t with
  | comma | colon => u.starts
  | openArray => u.starts || u = closeArray
  | openObject => u.starts || u = closeObject
  | _ => !u.starts

end Token

namespace Json

section Tokens

mutual

def tokens : Json → List Token
  | null => [.null]
  | boolean b => [.boolean b]
  | number d => [.number d]
  | string s => [.string s]
  | array [] => [.openArray, .closeArray]
  | array (x :: xs) => .openArray :: (x.tokens ++ moreItems xs)
  | object [] => [.openObject, .closeObject]
  | object (m :: ms) => .openObject :: .string m.1 :: .colon :: (m.2.tokens ++ moreMembers ms)

def moreItems : List Json → List Token
  | [] => [.closeArray]
  | x :: xs => .comma :: (x.tokens ++ moreItems xs)

def moreMembers : List (List Char × Json) → List Token
  | [] => [.closeObject]
  | m :: ms => .comma :: .string m.1 :: .colon :: (m.2.tokens ++ moreMembers ms)

end

theorem tokens_head (v : Json) : ∃ t ts, v.tokens = t :: ts ∧ t.starts = true := by
  cases v with
  | null => exact ⟨_, _, rfl, rfl⟩
  | boolean b => exact ⟨_, _, rfl, rfl⟩
  | number d => exact ⟨_, _, rfl, rfl⟩
  | string s => exact ⟨_, _, rfl, rfl⟩
  | array items => cases items <;> exact ⟨_, _, rfl, rfl⟩
  | object members => cases members <;> exact ⟨_, _, rfl, rfl⟩

end Tokens

section Parsing

mutual

def parseValue : ℕ → List Token → Option (Json × List Token)
  | 0, _ => none
  | fuel+1, ts => match ts with
    | .null :: ts => some (null, ts)
    | .boolean b :: ts => some (boolean b, ts)
    | .number d :: ts => some (number d, ts)
    | .string s :: ts => some (string s, ts)
    | .openArray :: .closeArray :: ts => some (array [], ts)
    | .openArray :: ts => do
      let (x, ts) ← parseValue fuel ts
      let (xs, ts) ← parseItems fuel ts
      some (array (x :: xs), ts)
    | .openObject :: .closeObject :: ts => some (object [], ts)
    | .openObject :: .string k :: .colon :: ts => do
      let (x, ts) ← parseValue fuel ts
      let (ms, ts) ← parseMembers fuel ts
      some (object ((k, x) :: ms), ts)
    | _ => none

def parseItems : ℕ → List Token → Option (List Json × List Token)
  | 0, _ => none
  | fuel+1, ts => match ts with
    | .closeArray :: ts => some ([], ts)
    | .comma :: ts => do
      let (x, ts) ← parseValue fuel ts
      let (xs, ts) ← parseItems fuel ts
      some (x :: xs, ts)
    | _ => none

def parseMembers : ℕ → List Token → Option (List (List Char × Json) × List Token)
  | 0, _ => none
  | fuel+1, ts => match ts with
    | .closeObject :: ts => some ([], ts)
    | .comma :: .string k :: .colon :: ts => do
      let (x, ts) ← parseValue fuel ts
      let (ms, ts) ← parseMembers fuel ts
      some ((k, x) :: ms, ts)
    | _ => none

end

def parseTokens (ts : List Token) : Option Json :=
  (parseValue (ts.length+1) ts).bind fun r => if r.2 = [] then some r.1 else none

theorem parse_sound (fuel : ℕ) :
    (∀ ts v rest, parseValue fuel ts = some (v, rest) → ts = v.tokens ++ rest) ∧
    (∀ ts xs rest, parseItems fuel ts = some (xs, rest) → ts = moreItems xs ++ rest) ∧
    ∀ ts ms rest, parseMembers fuel ts = some (ms, rest) → ts = moreMembers ms ++ rest := by
  induction fuel with
  | zero =>
    refine ⟨fun ts v rest h => ?_, fun ts xs rest h => ?_, fun ts ms rest h => ?_⟩ <;> cases h
  | succ fuel ih =>
    obtain ⟨hvalue, hitems, hmembers⟩ := ih
    refine ⟨fun ts v rest h => ?_, fun ts xs rest h => ?_, fun ts ms rest h => ?_⟩
    · unfold parseValue at h
      split at h
      · cases h; rfl
      · cases h; rfl
      · cases h; rfl
      · cases h; rfl
      · cases h; rfl
      · simp only [Option.bind_eq_bind, Option.bind_eq_some_iff, Prod.exists] at h
        obtain ⟨x, ts₁, hx, xs, ts₂, hxs, heq⟩ := h
        cases heq
        rw [hvalue _ _ _ hx, hitems _ _ _ hxs]
        simp [tokens]
      · cases h; rfl
      · simp only [Option.bind_eq_bind, Option.bind_eq_some_iff, Prod.exists] at h
        obtain ⟨x, ts₁, hx, ms, ts₂, hms, heq⟩ := h
        cases heq
        rw [hvalue _ _ _ hx, hmembers _ _ _ hms]
        simp [tokens]
      · cases h
    · unfold parseItems at h
      split at h
      · cases h; rfl
      · simp only [Option.bind_eq_bind, Option.bind_eq_some_iff, Prod.exists] at h
        obtain ⟨x, ts₁, hx, xs, ts₂, hxs, heq⟩ := h
        cases heq
        rw [hvalue _ _ _ hx, hitems _ _ _ hxs]
        simp [moreItems]
      · cases h
    · unfold parseMembers at h
      split at h
      · cases h; rfl
      · simp only [Option.bind_eq_bind, Option.bind_eq_some_iff, Prod.exists] at h
        obtain ⟨x, ts₁, hx, ms, ts₂, hms, heq⟩ := h
        cases heq
        rw [hvalue _ _ _ hx, hmembers _ _ _ hms]
        simp [moreMembers]
      · cases h

theorem parseValue_openArray {fuel : ℕ} {t : Token} {ts : List Token} (ht : t.starts = true) :
    parseValue (fuel+1) (.openArray :: t :: ts) =
      (parseValue fuel (t :: ts)).bind fun r =>
        (parseItems fuel r.2).bind fun q => some (array (r.1 :: q.1), q.2) := by
  cases t with
  | closeArray => cases ht
  | _ => rfl

mutual

theorem parseValue_tokens : ∀ (v : Json) (fuel : ℕ) (rest : List Token), v.tokens.length ≤ fuel →
    parseValue fuel (v.tokens ++ rest) = some (v, rest)
  | v, 0, rest, h => by
    obtain ⟨t, ts, ht, -⟩ := tokens_head v
    rw [ht] at h
    cases h
  | null, fuel+1, rest, h => rfl
  | boolean b, fuel+1, rest, h => rfl
  | number d, fuel+1, rest, h => rfl
  | string s, fuel+1, rest, h => rfl
  | array [], fuel+1, rest, h => rfl
  | array (x :: xs), fuel+1, rest, h => by
    obtain ⟨t, ts, ht, hstarts⟩ := tokens_head x
    rw [tokens, List.length_cons, List.length_append] at h
    have hx := parseValue_tokens x fuel (moreItems xs ++ rest) (by omega)
    have hxs := parseItems_tokens xs fuel rest (by omega)
    rw [ht, List.cons_append] at hx
    rw [tokens, ht, List.cons_append, List.cons_append, List.cons_append, List.append_assoc,
      parseValue_openArray hstarts, hx]
    simp [hxs]
  | object [], fuel+1, rest, h => rfl
  | object (m :: ms), fuel+1, rest, h => by
    rw [tokens, List.length_cons, List.length_cons, List.length_cons, List.length_append] at h
    have hx := parseValue_tokens m.2 fuel (moreMembers ms ++ rest) (by omega)
    have hms := parseMembers_tokens ms fuel rest (by omega)
    simp [tokens, parseValue, hx, hms]

theorem parseItems_tokens : ∀ (xs : List Json) (fuel : ℕ) (rest : List Token),
    (moreItems xs).length ≤ fuel → parseItems fuel (moreItems xs ++ rest) = some (xs, rest)
  | [], 0, rest, h => by cases h
  | _ :: _, 0, rest, h => by cases h
  | [], fuel+1, rest, h => rfl
  | x :: xs, fuel+1, rest, h => by
    rw [moreItems, List.length_cons, List.length_append] at h
    have hx := parseValue_tokens x fuel (moreItems xs ++ rest) (by omega)
    have hxs := parseItems_tokens xs fuel rest (by omega)
    simp [moreItems, parseItems, hx, hxs]

theorem parseMembers_tokens : ∀ (ms : List (List Char × Json)) (fuel : ℕ) (rest : List Token),
    (moreMembers ms).length ≤ fuel → parseMembers fuel (moreMembers ms ++ rest) = some (ms, rest)
  | [], 0, rest, h => by cases h
  | _ :: _, 0, rest, h => by cases h
  | [], fuel+1, rest, h => rfl
  | m :: ms, fuel+1, rest, h => by
    rw [moreMembers, List.length_cons, List.length_cons, List.length_cons, List.length_append] at h
    have hx := parseValue_tokens m.2 fuel (moreMembers ms ++ rest) (by omega)
    have hms := parseMembers_tokens ms fuel rest (by omega)
    simp [moreMembers, parseMembers, hx, hms]

end

/-- Exactly the tokens of a value are read as it. -/
theorem parseTokens_eq_some_iff {ts : List Token} {v : Json} :
    parseTokens ts = some v ↔ ts = v.tokens := by
  rw [parseTokens, Option.bind_eq_some_iff]
  constructor
  · rintro ⟨⟨w, rest⟩, hparse, h⟩
    have hsound := (parse_sound _).1 _ _ _ hparse
    split at h
    · next hrest =>
      rw [hsound, show rest = [] from hrest, List.append_nil, ← Option.some.inj h]
    · cases h
  · rintro rfl
    have hparse := parseValue_tokens v (v.tokens.length+1) [] (Nat.le_succ _)
    rw [List.append_nil] at hparse
    exact ⟨(v, []), hparse, rfl⟩

end Parsing

section Settling

/-! A later member of an object replaces an earlier one with its key, in its place. -/

variable (round : Decimal → Decimal)

mutual

/-- The value that is kept, with numbers that are rounded. Keys that are integers keep their place
among the others. -/
def settle : Json → Json
  | null => null
  | boolean b => boolean b
  | number d => number (round d)
  | string s => string s
  | array items => array (settleItems items)
  | object members => object (Entries.ofList (settleMembers members)).list

def settleItems : List Json → List Json
  | [] => []
  | x :: xs => x.settle :: settleItems xs

def settleMembers : List (List Char × Json) → List (List Char × Json)
  | [] => []
  | m :: ms => (m.1, m.2.settle) :: settleMembers ms

end

mutual

def Proper : Json → Prop
  | number d => round d = d
  | array items => ProperItems items
  | object members => (members.map (·.1)).Nodup ∧ ProperMembers members
  | _ => True

def ProperItems : List Json → Prop
  | [] => True
  | x :: xs => x.Proper ∧ ProperItems xs

def ProperMembers : List (List Char × Json) → Prop
  | [] => True
  | m :: ms => m.2.Proper ∧ ProperMembers ms

end

variable {round}

mutual

theorem settle_of_proper : ∀ v : Json, v.Proper round → v.settle round = v
  | null, _ => rfl
  | boolean _, _ => rfl
  | number d, h => congrArg number h
  | string _, _ => rfl
  | array items, h => congrArg array (settleItems_of_proper items h)
  | object members, h => by
    rw [settle, settleMembers_of_proper members h.2, Entries.ofList_of_nodup h.1]

theorem settleItems_of_proper : ∀ xs : List Json, ProperItems round xs → settleItems round xs = xs
  | [], _ => rfl
  | x :: xs, h => by rw [settleItems, settle_of_proper x h.1, settleItems_of_proper xs h.2]

theorem settleMembers_of_proper : ∀ ms : List (List Char × Json), ProperMembers round ms →
    settleMembers round ms = ms
  | [], _ => rfl
  | m :: ms, h => by rw [settleMembers, settle_of_proper m.2 h.1, settleMembers_of_proper ms h.2]

end

end Settling

section Strings

mutual

def mapStrings (f : List Char → List Char) : Json → Json
  | null => null
  | boolean b => boolean b
  | number d => number d
  | string s => string (f s)
  | array items => array (mapItems f items)
  | object members => object (mapMembers f members)

def mapItems (f : List Char → List Char) : List Json → List Json
  | [] => []
  | x :: xs => x.mapStrings f :: mapItems f xs

def mapMembers (f : List Char → List Char) : List (List Char × Json) → List (List Char × Json)
  | [] => []
  | m :: ms => (f m.1, m.2.mapStrings f) :: mapMembers f ms

end

mutual

theorem tokens_mapStrings (f : List Char → List Char) :
    ∀ v : Json, (v.mapStrings f).tokens = v.tokens.map (Token.mapString f)
  | null => rfl
  | boolean _ => rfl
  | number _ => rfl
  | string _ => rfl
  | array [] => rfl
  | array (x :: xs) => by
    simp [mapStrings, mapItems, tokens, tokens_mapStrings f x, moreItems_mapItems f xs,
      Token.mapString]
  | object [] => rfl
  | object (m :: ms) => by
    simp [mapStrings, mapMembers, tokens, tokens_mapStrings f m.2, moreMembers_mapMembers f ms,
      Token.mapString]

theorem moreItems_mapItems (f : List Char → List Char) :
    ∀ xs : List Json, moreItems (mapItems f xs) = (moreItems xs).map (Token.mapString f)
  | [] => rfl
  | x :: xs => by
    simp [mapItems, moreItems, tokens_mapStrings f x, moreItems_mapItems f xs, Token.mapString]

theorem moreMembers_mapMembers (f : List Char → List Char) :
    ∀ ms : List (List Char × Json),
      moreMembers (mapMembers f ms) = (moreMembers ms).map (Token.mapString f)
  | [] => rfl
  | m :: ms => by
    simp [mapMembers, moreMembers, tokens_mapStrings f m.2, moreMembers_mapMembers f ms,
      Token.mapString]

end

def textLength (v : Json) : ℕ := (v.tokens.map Token.textLength).sum

theorem sum_moreItems (xs : List Json) :
    ((moreItems xs).map Token.textLength).sum = (xs.map textLength).sum := by
  induction xs with
  | nil => rfl
  | cons x xs ih => simp [moreItems, ih, Token.textLength, textLength]

theorem sum_moreMembers (ms : List (List Char × Json)) :
    ((moreMembers ms).map Token.textLength).sum =
      (ms.map fun m => m.1.length+m.2.textLength).sum := by
  induction ms with
  | nil => rfl
  | cons m ms ih => simp [moreMembers, ih, Token.textLength, textLength, add_assoc]

theorem textLength_array (items : List Json) :
    (array items).textLength = (items.map textLength).sum := by
  cases items with
  | nil => rfl
  | cons x xs => simp [textLength, tokens, sum_moreItems, Token.textLength]

theorem textLength_object (members : List (List Char × Json)) :
    (object members).textLength = (members.map fun m => m.1.length+m.2.textLength).sum := by
  cases members with
  | nil => rfl
  | cons m ms => simp [textLength, tokens, sum_moreMembers, Token.textLength, add_assoc]

mutual

theorem textLength_settle_le (round : Decimal → Decimal) :
    ∀ v : Json, (v.settle round).textLength ≤ v.textLength
  | null => le_refl _
  | boolean _ => le_refl _
  | number _ => le_refl _
  | string _ => le_refl _
  | array items => by
    rw [settle, textLength_array, textLength_array]
    exact textLength_settleItems_le round items
  | object members => by
    rw [settle, textLength_object, textLength_object]
    exact (Entries.sum_ofList_le _ _).trans (textLength_settleMembers_le round members)

theorem textLength_settleItems_le (round : Decimal → Decimal) :
    ∀ xs : List Json, ((settleItems round xs).map textLength).sum ≤ (xs.map textLength).sum
  | [] => le_refl _
  | x :: xs => by
    have hx := textLength_settle_le round x
    have hxs := textLength_settleItems_le round xs
    simp only [settleItems, List.map_cons, List.sum_cons]
    omega

theorem textLength_settleMembers_le (round : Decimal → Decimal) :
    ∀ ms : List (List Char × Json),
      ((settleMembers round ms).map fun m => m.1.length+m.2.textLength).sum ≤
        (ms.map fun m => m.1.length+m.2.textLength).sum
  | [] => le_refl _
  | m :: ms => by
    have hm := textLength_settle_le round m.2
    have hms := textLength_settleMembers_le round ms
    simp only [settleMembers, List.map_cons, List.sum_cons]
    omega

end

end Strings

section Order

theorem isChain_value {t : Token} {rest : List Token} (ht : t.ends = true)
    (hhead : ∀ t ∈ rest.head?, t.starts = false)
    (hrest : rest.IsChain (Token.mayFollow · ·)) : (t :: rest).IsChain (Token.mayFollow · ·) := by
  refine List.isChain_cons.mpr ⟨fun u hu => ?_, hrest⟩
  have hfollow : t.mayFollow u = !u.starts := by
    cases t <;> first | rfl | cases ht
  rw [hfollow, hhead u hu]
  rfl

theorem isChain_member (k : List Char) (x : Json) {rest : List Token}
    (h : (x.tokens ++ rest).IsChain (Token.mayFollow · ·)) :
    (.string k :: .colon :: (x.tokens ++ rest)).IsChain (Token.mayFollow · ·) := by
  obtain ⟨t, ts, ht, hstarts⟩ := tokens_head x
  rw [ht, List.cons_append] at h ⊢
  exact .cons_cons rfl (.cons_cons hstarts h)

theorem moreItems_head (xs : List Json) (rest : List Token) :
    ∀ t ∈ (moreItems xs ++ rest).head?, t.starts = false := by
  cases xs <;> simp [moreItems, Token.starts]

theorem moreMembers_head (ms : List (List Char × Json)) (rest : List Token) :
    ∀ t ∈ (moreMembers ms ++ rest).head?, t.starts = false := by
  cases ms <;> simp [moreMembers, Token.starts]

mutual

theorem isChain_tokens : ∀ (v : Json) (rest : List Token),
    (∀ t ∈ rest.head?, t.starts = false) → rest.IsChain (Token.mayFollow · ·) →
      (v.tokens ++ rest).IsChain (Token.mayFollow · ·)
  | null, rest, hhead, hrest => isChain_value rfl hhead hrest
  | boolean _, rest, hhead, hrest => isChain_value rfl hhead hrest
  | number _, rest, hhead, hrest => isChain_value rfl hhead hrest
  | string _, rest, hhead, hrest => isChain_value rfl hhead hrest
  | array [], rest, hhead, hrest => .cons_cons rfl (isChain_value rfl hhead hrest)
  | array (x :: xs), rest, hhead, hrest => by
    obtain ⟨t, ts, ht, hstarts⟩ := tokens_head x
    have hmore := isChain_moreItems xs rest hhead hrest
    have hx := isChain_tokens x (moreItems xs ++ rest) (moreItems_head xs rest) hmore
    rw [tokens, List.cons_append, List.append_assoc]
    rw [ht, List.cons_append] at hx ⊢
    exact .cons_cons (by simp [Token.mayFollow, hstarts]) hx
  | object [], rest, hhead, hrest => .cons_cons rfl (isChain_value rfl hhead hrest)
  | object (m :: ms), rest, hhead, hrest => by
    have hmore := isChain_moreMembers ms rest hhead hrest
    have hx := isChain_member m.1 m.2 (isChain_tokens m.2 (moreMembers ms ++ rest)
      (moreMembers_head ms rest) hmore)
    rw [tokens, List.cons_append, List.cons_append, List.cons_append, List.append_assoc]
    exact .cons_cons rfl hx

theorem isChain_moreItems : ∀ (xs : List Json) (rest : List Token),
    (∀ t ∈ rest.head?, t.starts = false) → rest.IsChain (Token.mayFollow · ·) →
      (moreItems xs ++ rest).IsChain (Token.mayFollow · ·)
  | [], rest, hhead, hrest => isChain_value rfl hhead hrest
  | x :: xs, rest, hhead, hrest => by
    obtain ⟨t, ts, ht, hstarts⟩ := tokens_head x
    have hmore := isChain_moreItems xs rest hhead hrest
    have hx := isChain_tokens x (moreItems xs ++ rest) (moreItems_head xs rest) hmore
    rw [moreItems, List.cons_append, List.append_assoc]
    rw [ht, List.cons_append] at hx ⊢
    exact .cons_cons hstarts hx

theorem isChain_moreMembers : ∀ (ms : List (List Char × Json)) (rest : List Token),
    (∀ t ∈ rest.head?, t.starts = false) → rest.IsChain (Token.mayFollow · ·) →
      (moreMembers ms ++ rest).IsChain (Token.mayFollow · ·)
  | [], rest, hhead, hrest => isChain_value rfl hhead hrest
  | m :: ms, rest, hhead, hrest => by
    have hmore := isChain_moreMembers ms rest hhead hrest
    have hx := isChain_member m.1 m.2 (isChain_tokens m.2 (moreMembers ms ++ rest)
      (moreMembers_head ms rest) hmore)
    rw [moreMembers, List.cons_append, List.cons_append, List.cons_append, List.append_assoc]
    exact .cons_cons rfl hx

end

end Order

end Json

end Cinder.Ecma
