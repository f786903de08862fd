import Mathlib.Data.List.Basic
set_option autoImplicit false

namespace Cinder.Streams

def IsDecimal (s : List Char) : Prop := s ≠ [] ∧ ∀ c ∈ s, c.isDigit = true

instance (s : List Char) : Decidable (IsDecimal s) :=
  decidable_of_iff (s ≠ [] ∧ s.all (·.isDigit) = true) (by rw [IsDecimal, List.all_eq_true])

def readDecimal (s : List Char) : Option Nat :=
  if IsDecimal s then some (Nat.ofDigitChars 10 s 0) else none

theorem readDecimal_eq_some {s : List Char} {n : Nat} :
    readDecimal s = some n ↔ IsDecimal s ∧ Nat.ofDigitChars 10 s 0 = n := by
  unfold readDecimal
  split
  · next h => simp [h]
  · next h => simp [h]

theorem isDecimal_toDigits (n : Nat) : IsDecimal (Nat.toDigits 10 n) :=
  ⟨Nat.toDigits_ne_nil, fun _ h => Nat.isDigit_of_mem_toDigits (by decide) (by decide) h⟩

theorem readDecimal_toDigits (n : Nat) : readDecimal (Nat.toDigits 10 n) = some n :=
  readDecimal_eq_some.mpr ⟨isDecimal_toDigits n, Nat.ofDigitChars_ten_toDigits⟩

theorem head?_toDigits_ne_zero {b n : Nat} (hb : 1 < b)
    (hzero : ∀ d < b, Nat.digitChar d = '0' → d = 0) (hn : 0 < n) :
    (Nat.toDigits b n).head? ≠ some '0' := by
  induction n using Nat.base_induction b hb with
  | single m hm =>
    rw [Nat.toDigits_of_lt_base hm, List.head?_cons, ne_eq, Option.some.injEq]
    exact fun h => absurd (hzero m hm h) (Nat.ne_of_gt hn)
  | digit m k hk hm ih =>
    rw [← Nat.toDigits_append_toDigits hb hm hk, List.head?_append_of_ne_nil _ Nat.toDigits_ne_nil]
    exact ih hm

theorem IsDecimal.append {s t : List Char} (h : IsDecimal s) (ht : ∀ c ∈ t, c.isDigit = true) :
    IsDecimal (s ++ t) :=
  ⟨List.append_ne_nil_of_left_ne_nil h.1 t, List.forall_mem_append.mpr ⟨h.2, ht⟩⟩

theorem IsDecimal.not_mem {s : List Char} (h : IsDecimal s) {c : Char}
    (hc : c.isDigit = false) : c ∉ s := by
  intro hmem
  rw [h.2 c hmem] at hc
  cases hc

theorem toNat_of_isAlphanum {c : Char} (h : c.isAlphanum = true) :
    48 ≤ c.toNat ∧ c.toNat ≤ 122 := by
  delta Char.isAlphanum Char.isAlpha Char.isUpper Char.isLower Char.isDigit at h
  simp only [Bool.or_eq_true, Bool.and_eq_true, decide_eq_true_eq, UInt32.le_iff_toNat_le, ge_iff_le,
    Char.reduceVal, UInt32.reduceToNat, Char.toNat_val] at h
  omega

/-- `strip_prefix`. -/
def stripPrefix (p s : List Char) : Option (List Char) :=
  if p.isPrefixOf s then some (s.drop p.length) else none

@[simp] theorem stripPrefix_append (p s : List Char) : stripPrefix p (p ++ s) = some s := by
  simp [stripPrefix]

theorem stripPrefix_eq_some {p s t : List Char} (h : stripPrefix p s = some t) : s = p ++ t := by
  unfold stripPrefix at h
  split at h
  · next hp =>
    obtain ⟨u, rfl⟩ := List.isPrefixOf_iff_prefix.mp hp
    rw [← Option.some.inj h, List.drop_left]
  · cases h

/-- `split_once`: what stands before the first such character, and what stands after it. -/
def splitOnce (c : Char) : List Char → Option (List Char × List Char)
  | [] => none
  | x :: s => if x = c then some ([], s) else (splitOnce c s).map fun p => (x :: p.1, p.2)

theorem splitOnce_append {c : Char} {s : List Char} (h : c ∉ s) (t : List Char) :
    splitOnce c (s ++ c :: t) = some (s, t) := by
  induction s with
  | nil => simp [splitOnce]
  | cons x s ih =>
    simp only [List.mem_cons, not_or] at h
    simp [splitOnce, Ne.symm h.1, ih h.2]

theorem splitOnce_eq_some {c : Char} {s t u : List Char} (h : splitOnce c s = some (t, u)) :
    c ∉ t ∧ s = t ++ c :: u := by
  induction s generalizing t with
  | nil => cases h
  | cons x s ih =>
    unfold splitOnce at h
    split at h
    · next hx =>
      cases h
      exact ⟨List.not_mem_nil, by rw [hx]; rfl⟩
    · next hx =>
      obtain ⟨⟨t', u'⟩, hrest, heq⟩ := Option.map_eq_some_iff.mp h
      cases heq
      obtain ⟨hmem, rfl⟩ := ih hrest
      exact ⟨fun hc => (List.mem_cons.mp hc).elim (fun heq => hx heq.symm) hmem, rfl⟩

end Cinder.Streams

/-!
Bytes as hexadecimal text: two digits a byte, written in lower case and read in either case.
-/

namespace Cinder.Streams

def smallHexDigit (n : Nat) : Char := if n < 10 then Char.ofNat (48 + n) else Char.ofNat (87 + n)

def encodeHex (bytes : List UInt8) : List Char :=
  bytes.flatMap fun b => [smallHexDigit (b.toNat/16), smallHexDigit (b.toNat % 16)]

def readHexDigit (c : Char) : Option Nat :=
  if '0' ≤ c ∧ c ≤ '9' then some (c.toNat - 48)
  else if 'a' ≤ c ∧ c ≤ 'f' then some (c.toNat - 87)
  else if 'A' ≤ c ∧ c ≤ 'F' then some (c.toNat - 55)
  else none

def decodeHex : List Char → Option (List UInt8)
  | [] => some []
  | [_] => none
  | high :: low :: rest => do
    let high ← readHexDigit high
    let low ← readHexDigit low
    let bytes ← decodeHex rest
    some (UInt8.ofNat (16*high + low) :: bytes)

theorem readHexDigit_smallHexDigit {n : Nat} (h : n < 16) :
    readHexDigit (smallHexDigit n) = some n := by
  have hall : ∀ n < 16, readHexDigit (smallHexDigit n) = some n := by decide
  exact hall n h

theorem decodeHex_encodeHex (bytes : List UInt8) : decodeHex (encodeHex bytes) = some bytes := by
  induction bytes with
  | nil => rfl
  | cons b bytes ih =>
    have hhigh : b.toNat/16 < 16 := by
      have := b.toNat_lt
      omega
    have hlow : b.toNat % 16 < 16 := Nat.mod_lt _ (by decide)
    have hb : UInt8.ofNat (16*(b.toNat/16) + b.toNat % 16) = b := by
      rw [Nat.div_add_mod]
      exact UInt8.ofNat_toNat
    change decodeHex (_ :: _ :: encodeHex bytes) = _
    rw [decodeHex, readHexDigit_smallHexDigit hhigh, readHexDigit_smallHexDigit hlow, ih]
    simp only [Option.bind_eq_bind, Option.bind_some, hb]

theorem encodeHex_eq_nil_iff {bytes : List UInt8} : encodeHex bytes = [] ↔ bytes = [] := by
  cases bytes <;> simp [encodeHex]

theorem colon_not_mem_encodeHex (bytes : List UInt8) : ':' ∉ encodeHex bytes := by
  have hdigit : ∀ n < 16, ':' ≠ smallHexDigit n := by decide
  intro hc
  obtain ⟨b, -, hc⟩ := List.mem_flatMap.mp hc
  have hb := b.toNat_lt
  simp only [List.mem_cons, List.not_mem_nil, or_false] at hc
  rcases hc with hc | hc
  · exact hdigit _ (by omega) hc
  · exact hdigit _ (by omega) hc

end Cinder.Streams
