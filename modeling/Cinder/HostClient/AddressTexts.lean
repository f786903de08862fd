import Cinder.HostClient.LocalNetwork
import Cinder.Streams.UrlHosts
set_option autoImplicit false

namespace Cinder.HostClient
open Cinder.Streams

section Numbers
variable {radix : Nat}

def digitsValue (radix : Nat) (s : List Char) : Nat :=
  s.foldl (fun n c => n*radix + (toDigit radix c).getD 0) 0

def EndsNumber (radix : Nat) (s : List Char) : Prop :=
  ∀ c ∈ s.head?, toDigit radix c = none

theorem readNumber_append {maxDigits bound : Nat} {zeros : Bool} {run rest : List Char}
    (hrun : ∀ c ∈ run, (toDigit radix c).isSome = true) (hne : run ≠ [])
    (hlength : run.length ≤ maxDigits) (hvalue : digitsValue radix run < bound)
    (hzeros : zeros = true ∨ ¬(run.head? = some '0' ∧ 1 < run.length))
    (hrest : EndsNumber radix rest) :
    readNumber radix maxDigits bound zeros (run ++ rest) = some (digitsValue radix run, rest) := by
  have htake : (run ++ rest).takeWhile (fun c => (toDigit radix c).isSome) = run := by
    rw [List.takeWhile_append_of_pos hrun]
    cases rest with
    | nil => simp
    | cons c rest => simp [hrest c rfl]
  have hnone : ¬((run.isEmpty || decide (run.length > maxDigits) ||
      decide (digitsValue radix run ≥ bound) ||
      (!zeros && decide (run.head? = some '0') && decide (run.length > 1))) = true) := by
    simp only [Bool.or_eq_true, Bool.and_eq_true, decide_eq_true_eq, List.isEmpty_iff,
      Bool.not_eq_true', not_or]
    refine ⟨⟨⟨hne, by omega⟩, by omega⟩, ?_⟩
    rintro ⟨⟨hfalse, hhead⟩, hlong⟩
    rcases hzeros with hzeros | hzeros
    · rw [hzeros] at hfalse
      cases hfalse
    · exact hzeros ⟨hhead, hlong⟩
  unfold readNumber
  simp only [htake]
  refine (if_neg hnone).trans ?_
  rw [List.drop_left]
  rfl

def Digits (radix : Nat) : Prop := 1 < radix ∧ ∀ d < radix, toDigit radix (Nat.digitChar d) = some d

theorem digits_ten : Digits 10 := ⟨by decide, by decide⟩

theorem digits_sixteen : Digits 16 := ⟨by decide, by decide⟩

theorem digitsValue_append (s t : List Char) :
    digitsValue radix (s ++ t) =
      t.foldl (fun n c => n*radix + (toDigit radix c).getD 0) (digitsValue radix s) := by
  rw [digitsValue, List.foldl_append]
  rfl

theorem digitsValue_toDigits (h : Digits radix) (n : Nat) :
    digitsValue radix (Nat.toDigits radix n) = n := by
  induction n using Nat.base_induction radix h.1 with
  | single m hm => simp [Nat.toDigits_of_lt_base hm, digitsValue, h.2 m hm]
  | digit m k hk hm ih =>
    rw [← Nat.toDigits_append_toDigits h.1 hm hk, digitsValue_append, ih,
      Nat.toDigits_of_lt_base hk]
    simp [h.2 k hk, Nat.mul_comm]

theorem isSome_toDigit_of_mem (h : Digits radix) (n : Nat) :
    ∀ c ∈ Nat.toDigits radix n, (toDigit radix c).isSome = true := by
  induction n using Nat.base_induction radix h.1 with
  | single m hm => simp [Nat.toDigits_of_lt_base hm, h.2 m hm]
  | digit m k hk hm ih =>
    rw [← Nat.toDigits_append_toDigits h.1 hm hk, Nat.toDigits_of_lt_base hk]
    intro c hc
    rcases List.mem_append.mp hc with hc | hc
    · exact ih c hc
    · rw [List.mem_singleton.mp hc, h.2 k hk]
      rfl

theorem head_toDigits_ne_zero (h : Digits radix) {n : Nat} (hn : 0 < n) :
    (Nat.toDigits radix n).head? ≠ some '0' := by
  refine head?_toDigits_ne_zero h.1 (fun d hd heq => ?_) hn
  have hzero := h.2 0 (Nat.zero_lt_of_lt h.1)
  have hdigit := h.2 d hd
  rw [heq, ← show Nat.digitChar 0 = '0' from rfl, hzero, Option.some.injEq] at hdigit
  exact hdigit.symm

theorem readNumber_toDigits (h : Digits radix) (maxDigits bound : Nat) (zeros : Bool) {n : Nat}
    {rest : List Char} (hmax : 0 < maxDigits) (hbound : bound ≤ radix^maxDigits) (hn : n < bound)
    (hrest : EndsNumber radix rest) :
    readNumber radix maxDigits bound zeros (Nat.toDigits radix n ++ rest) = some (n, rest) := by
  have hvalue := digitsValue_toDigits h n
  rw [readNumber_append (isSome_toDigit_of_mem h n) Nat.toDigits_ne_nil
    ((Nat.length_toDigits_le_iff h.1 hmax).mpr (Nat.lt_of_lt_of_le hn hbound)) (by rwa [hvalue])
    (.inr ?_) hrest, hvalue]
  rintro ⟨hhead, hlong⟩
  rcases Nat.eq_zero_or_pos n with rfl | hpos
  · rw [Nat.toDigits_of_lt_base (Nat.lt_trans Nat.one_pos h.1)] at hlong
    exact absurd hlong (by simp)
  · exact head_toDigits_ne_zero h hpos hhead

theorem readNumber_some {maxDigits bound n : Nat} {zeros : Bool} {s rest : List Char}
    (h : readNumber radix maxDigits bound zeros s = some (n, rest)) :
    ∃ run, run ≠ [] ∧ (∀ c ∈ run, (toDigit radix c).isSome = true) ∧ s = run ++ rest := by
  unfold readNumber at h
  dsimp only at h
  split at h
  · cases h
  · next hnone =>
    simp only [Bool.or_eq_true, not_or, List.isEmpty_iff] at hnone
    obtain ⟨-, hrest⟩ := Prod.mk.inj (Option.some.inj h)
    refine ⟨_, hnone.1.1.1, fun c hc => ?_, ?_⟩
    · exact List.mem_takeWhile_imp (p := fun c => (toDigit radix c).isSome) hc
    · rw [← hrest]
      exact (List.prefix_iff_eq_append.mp (List.takeWhile_prefix _)).symm

end Numbers

def separated (sep : Char) (parts : List (List Char)) : List Char :=
  (parts.map (sep :: ·)).flatten

theorem intercalate_cons (sep : Char) (x : List Char) (parts : List (List Char)) :
    [sep].intercalate (x :: parts) = x ++ separated sep parts := by
  induction parts generalizing x with
  | nil => simp [List.intercalate, separated]
  | cons y parts ih =>
    have hnext := ih y
    simp only [List.intercalate, separated, List.intersperse_cons_cons, List.flatten_cons,
      List.map_cons] at hnext ⊢
    rw [hnext]
    rfl

theorem endsNumber_nil (radix : Nat) : EndsNumber radix [] := fun c hc => by cases hc

theorem endsNumber_cons {radix : Nat} {c : Char} (h : toDigit radix c = none) (s : List Char) :
    EndsNumber radix (c :: s) := by
  intro d hd
  cases hd
  exact h

theorem EndsNumber.separated {radix : Nat} {rest : List Char} (h : EndsNumber radix rest)
    (sep : Char) (hsep : toDigit radix sep = none) (parts : List (List Char)) :
    EndsNumber radix (separated sep parts ++ rest) := by
  cases parts with
  | nil => exact h
  | cons part parts => exact endsNumber_cons hsep _

theorem readOctets_separated {octets : List Nat} (hsmall : ∀ n ∈ octets, n < 256) (i : Nat)
    {rest : List Char} (hrest : EndsNumber 10 rest) :
    readOctets octets.length (i+1) (separated '.' (octets.map (Nat.toDigits 10)) ++ rest) =
      some (octets, rest) := by
  induction octets generalizing i with
  | nil => rfl
  | cons n octets ih =>
    have hnumber : readSeparator '.' (i+1) (readNumber 10 3 256 false)
        (separated '.' ((n :: octets).map (Nat.toDigits 10)) ++ rest) =
          some (n, separated '.' (octets.map (Nat.toDigits 10)) ++ rest) := by
      have hread := readNumber_toDigits digits_ten 3 256 false (by decide) (by decide)
        (hsmall n List.mem_cons_self)
        (hrest.separated '.' (by decide) (octets.map (Nat.toDigits 10)))
      simpa [readSeparator, separated] using hread
    rw [List.length_cons, readOctets, hnumber]
    simp [ih (fun m hm => hsmall m (List.mem_cons_of_mem _ hm)) (i+1)]

theorem readIpv4Addr_decimals {octets : List Nat} (hlength : octets.length = 4)
    (hsmall : ∀ n ∈ octets, n < 256) : readIpv4Addr (decimals octets) = some (octets, []) := by
  obtain ⟨n, octets, rfl⟩ := List.exists_cons_of_ne_nil (List.ne_nil_of_length_eq_add_one hlength)
  have hrest := (endsNumber_nil 10).separated '.' (by decide) (octets.map (Nat.toDigits 10))
  have hnumber := readNumber_toDigits digits_ten 3 256 false (by decide) (by decide)
    (hsmall n List.mem_cons_self) hrest
  have hoctets := readOctets_separated (fun m hm => hsmall m (List.mem_cons_of_mem _ hm)) 0
    (endsNumber_nil 10)
  have hthree : octets.length = 3 := by simpa using hlength
  rw [List.append_nil] at hnumber hoctets
  rw [hthree] at hoctets
  rw [decimals, List.map_cons, intercalate_cons]
  simp [readIpv4Addr, readOctets, readSeparator, hnumber] at hoctets ⊢
  simp [hoctets]

theorem readIpv4Addr_none {s : List Char} (h : '.' ∉ s) : readIpv4Addr s = none := by
  have hfirst : readSeparator '.' 0 (readNumber 10 3 256 false) s =
      readNumber 10 3 256 false s := rfl
  rw [readIpv4Addr, readOctets, hfirst]
  cases hnumber : readNumber 10 3 256 false s with
  | none => rfl
  | some found =>
    obtain ⟨n, rest⟩ := found
    obtain ⟨run, -, -, rfl⟩ := readNumber_some hnumber
    have hrest : readSeparator '.' 1 (readNumber 10 3 256 false) rest = none := by
      cases rest with
      | nil => rfl
      | cons c rest =>
        have hc : c ≠ '.' := by
          rintro rfl
          simp at h
        simp [readSeparator, hc]
    simp [readOctets, hrest]

theorem dot_not_mem_hex (n : Nat) : '.' ∉ Nat.toDigits 16 n := fun h => by
  have hdigit := isSome_toDigit_of_mem digits_sixteen n _ h
  revert hdigit
  decide

theorem dot_not_mem_groups {groups : List Nat} {rest : List Char} (h : '.' ∉ rest) :
    '.' ∉ separated ':' (groups.map (Nat.toDigits 16)) ++ rest := by
  induction groups with
  | nil => exact h
  | cons n groups ih =>
    have hcolon : '.' ≠ ':' := by decide
    simpa [separated, hcolon, dot_not_mem_hex n] using ih

theorem noIpv4Group {s : List Char} (h : '.' ∉ s) (left i : Nat) :
    (if left = 0 then none else readSeparator ':' i readIpv4Addr s) = none := by
  split
  · rfl
  · unfold readSeparator
    split
    · exact readIpv4Addr_none h
    · cases s with
      | nil => rfl
      | cons c s =>
        dsimp only
        rw [readIpv4Addr_none fun hdot => h (List.mem_cons_of_mem _ hdot), ite_self]

def EndsGroups (rest : List Char) : Prop := '.' ∉ rest ∧ (rest = [] ∨ ∃ t, rest = ':' :: ':' :: t)

theorem EndsGroups.readSeparator {rest : List Char} (h : EndsGroups rest) (i : Nat) :
    readSeparator ':' i (readNumber 16 4 65536 true) rest = none := by
  obtain ⟨-, rfl | ⟨t, rfl⟩⟩ := h
  · unfold HostClient.readSeparator
    split <;> rfl
  · have hcolon : ∀ t, readNumber 16 4 65536 true (':' :: t) = none := fun t => rfl
    unfold HostClient.readSeparator
    split
    · exact hcolon _
    · exact (if_pos rfl).trans (hcolon t)

theorem EndsGroups.readGroups {rest : List Char} (h : EndsGroups rest) (left i : Nat) :
    readGroups left i rest = ([], false, rest) := by
  cases left with
  | zero => rfl
  | succ left => rw [HostClient.readGroups, noIpv4Group h.1, h.readSeparator]

theorem EndsGroups.endsNumber {rest : List Char} (h : EndsGroups rest) :
    EndsNumber 16 rest := by
  obtain ⟨-, rfl | ⟨t, rfl⟩⟩ := h
  · exact endsNumber_nil 16
  · exact endsNumber_cons (by decide) _

def groupsText (i : Nat) (groups : List Nat) : List Char :=
  if i = 0 then hexGroups groups else separated ':' (groups.map (Nat.toDigits 16))

theorem readSeparator_succ {α : Type} (sep : Char) (i : Nat) (inner : List Char → Option α)
    (s : List Char) : readSeparator sep (i+1) inner (sep :: s) = inner s := by
  simp [readSeparator]

theorem groupsText_zero_cons (n : Nat) (groups : List Nat) :
    groupsText 0 (n :: groups) = Nat.toDigits 16 n ++ groupsText 1 groups := by
  rw [groupsText, if_pos rfl, hexGroups, List.map_cons, intercalate_cons]
  rfl

theorem groupsText_succ_cons (i n : Nat) (groups : List Nat) :
    groupsText (i+1) (n :: groups) = ':' :: (Nat.toDigits 16 n ++ groupsText 1 groups) := rfl

theorem dot_not_mem_text (i : Nat) (groups : List Nat) {rest : List Char} (h : '.' ∉ rest) :
    '.' ∉ groupsText i groups ++ rest := by
  cases i with
  | succ i => exact dot_not_mem_groups h
  | zero =>
    cases groups with
    | nil => exact h
    | cons n groups =>
      rw [groupsText_zero_cons, List.append_assoc, List.mem_append, not_or]
      exact ⟨dot_not_mem_hex n, dot_not_mem_groups h⟩

theorem dot_not_mem_hexGroups (groups : List Nat) : '.' ∉ hexGroups groups := by
  have hdot := dot_not_mem_text 0 groups (List.not_mem_nil (a := '.'))
  rwa [List.append_nil] at hdot

theorem readGroups_text {groups : List Nat} (hsmall : ∀ n ∈ groups, n < 65536) (i : Nat)
    {left : Nat} (hleft : groups.length ≤ left) {rest : List Char} (hrest : EndsGroups rest) :
    readGroups left i (groupsText i groups ++ rest) = (groups, false, rest) := by
  induction groups generalizing i left with
  | nil =>
    have hnil : groupsText i [] = [] := by
      unfold groupsText
      split <;> rfl
    rw [hnil, List.nil_append, hrest.readGroups]
  | cons n groups ih =>
    obtain ⟨left, rfl⟩ : ∃ k, left = k+1 := ⟨left-1, by simp at hleft; omega⟩
    have hnumber := readNumber_toDigits digits_sixteen 4 65536 true (by decide) (by decide)
      (hsmall n List.mem_cons_self)
      (hrest.endsNumber.separated ':' (by decide) (groups.map (Nat.toDigits 16)))
    have hread : HostClient.readSeparator ':' i (readNumber 16 4 65536 true)
        (groupsText i (n :: groups) ++ rest) = some (n, groupsText (i+1) groups ++ rest) := by
      cases i with
      | zero =>
        rw [groupsText_zero_cons, List.append_assoc]
        exact hnumber
      | succ i =>
        rw [groupsText_succ_cons, List.cons_append, List.append_assoc, readSeparator_succ]
        exact hnumber
    have hdot := dot_not_mem_text i (n :: groups) hrest.1
    have hnext := ih (fun m hm => hsmall m (List.mem_cons_of_mem _ hm)) (i+1)
      (Nat.le_of_succ_le_succ hleft)
    rw [HostClient.readGroups, noIpv4Group hdot, hread]
    simp only [hnext]

theorem readIpv6Addr_compressed {groups : List Nat} (hlength : groups.length = 8)
    (hsmall : ∀ n ∈ groups, n < 65536) : readIpv6Addr (compressed groups) = some (groups, []) := by
  have hnil : EndsGroups [] := ⟨List.not_mem_nil, .inl rfl⟩
  unfold compressed
  split
  · have hread := readGroups_text hsmall 0 (Nat.le_of_eq hlength) hnil
    rw [List.append_nil] at hread
    change readGroups 8 0 (hexGroups groups) = _ at hread
    rw [readIpv6Addr, hread]
    exact if_pos hlength
  · next i n hzeros =>
    obtain ⟨hn, hi, hgroups⟩ := zeroRun_some hlength hzeros
    have hfront : (groups.take i).length = i := by
      rw [List.length_take]
      omega
    have hback : (groups.drop (i+n)).length = 8-(i+n) := by rw [List.length_drop, hlength]
    have hbackLe : (groups.drop (i+n)).length ≤ 7-i := by omega
    have hfrontLe : (groups.take i).length ≤ 8 := by omega
    have htail := readGroups_text (fun m hm => hsmall m (List.mem_of_mem_drop hm)) 0 hbackLe hnil
    rw [List.append_nil] at htail
    change readGroups (7-i) 0 (hexGroups (groups.drop (i+n))) = _ at htail
    have hrest : EndsGroups (':' :: ':' :: hexGroups (groups.drop (i+n))) := by
      refine ⟨?_, .inr ⟨_, rfl⟩⟩
      simpa using dot_not_mem_hexGroups (groups.drop (i+n))
    have hhead := readGroups_text (fun m hm => hsmall m (List.mem_of_mem_take hm)) 0 hfrontLe
      hrest
    have htext : hexGroups (groups.take i) ++ "::".toList ++ hexGroups (groups.drop (i+n)) =
        groupsText 0 (groups.take i) ++ ':' :: ':' :: hexGroups (groups.drop (i+n)) := by
      simp [groupsText]
    have hshort : ¬i = 8 := by omega
    have hzero : 8-i-(8-(i+n)) = n := by omega
    rw [htext, readIpv6Addr, hhead]
    simp only [hfront, if_neg hshort, htail, hback, hzero, ← hgroups]
    rfl

theorem parseIpAddr_decimals {octets : List Nat} (hlength : octets.length = 4)
    (hsmall : ∀ n ∈ octets, n < 256) : parseIpAddr (decimals octets) = some (.v4 octets) := by
  rw [parseIpAddr, readIpv4Addr_decimals hlength hsmall]
  rfl

theorem dot_not_mem_compressed (groups : List Nat) : '.' ∉ compressed groups := by
  unfold compressed
  split
  · exact dot_not_mem_hexGroups groups
  · simp [dot_not_mem_hexGroups]

theorem parseIpAddr_compressed {groups : List Nat} (hlength : groups.length = 8)
    (hsmall : ∀ n ∈ groups, n < 65536) : parseIpAddr (compressed groups) = some (.v6 groups) := by
  rw [parseIpAddr, readIpv4Addr_none (dot_not_mem_compressed groups),
    readIpv6Addr_compressed hlength hsmall]
  rfl

theorem isDigit_of_toDigit {c : Char} (h : (toDigit 10 c).isSome = true) : c.isDigit = true := by
  by_cases hc : '0' ≤ c ∧ c ≤ '9'
  · simp only [Char.isDigit, Bool.and_eq_true, decide_eq_true_eq]
    exact hc
  · have hlow : 'a' ≤ c → 97 ≤ c.toNat := fun hd => UInt32.le_iff_toNat_le.mp hd
    have hupp : 'A' ≤ c → 65 ≤ c.toNat := fun hd => UInt32.le_iff_toNat_le.mp hd
    have hnone : toDigit 10 c = none := by
      unfold toDigit
      rw [if_neg hc]
      refine if_neg ?_
      by_cases ha : 'a' ≤ c ∧ c ≤ 'f'
      · have := hlow ha.1
        rw [if_pos ha]
        omega
      · rw [if_neg ha]
        by_cases hA : 'A' ≤ c ∧ c ≤ 'F'
        · have := hupp hA.1
          rw [if_pos hA]
          omega
        · rw [if_neg hA]
          omega
    rw [hnone] at h
    cases h

theorem readOctets_some {k i : Nat} {s rest : List Char} {octets : List Nat}
    (h : readOctets k (i+1) s = some (octets, rest)) :
    ∃ runs : List (List Char), runs.length = k ∧ (∀ run ∈ runs, IsDecimal run) ∧
      s = separated '.' runs ++ rest := by
  induction k generalizing i s octets with
  | zero =>
    cases h
    exact ⟨[], rfl, List.forall_mem_nil _, rfl⟩
  | succ k ih =>
    simp only [readOctets, Option.bind_eq_bind, Option.bind_eq_some_iff] at h
    obtain ⟨⟨n, s'⟩, hread, ⟨octets', rest'⟩, hoctets, heq⟩ := h
    obtain ⟨-, hrest⟩ := Prod.mk.inj (Option.some.inj heq)
    have hoctets : readOctets k (i+1+1) s' = some (octets', rest) := by
      rw [← hrest]
      exact hoctets
    obtain ⟨runs, hlength, hruns, rfl⟩ := ih hoctets
    cases s with
    | nil => cases hread
    | cons c s =>
      have hsep : c = '.' ∧ readNumber 10 3 256 false s = some (n, separated '.' runs ++ rest) := by
        simpa [readSeparator] using hread
      obtain ⟨run, hne, hdigits, rfl⟩ := readNumber_some hsep.2
      have hrun : IsDecimal run := ⟨hne, fun c hc => isDigit_of_toDigit (hdigits c hc)⟩
      refine ⟨run :: runs, by rw [List.length_cons, hlength],
        List.forall_mem_cons.mpr ⟨hrun, hruns⟩, ?_⟩
      rw [hsep.1]
      simp [separated]

theorem readIpv4Addr_some {s rest : List Char} {octets : List Nat}
    (h : readIpv4Addr s = some (octets, rest)) :
    ∃ runs : List (List Char), runs.length = 4 ∧ (∀ run ∈ runs, IsDecimal run) ∧
      s = ['.'].intercalate runs ++ rest := by
  have hfirst : readSeparator '.' 0 (readNumber 10 3 256 false) s =
      readNumber 10 3 256 false s := rfl
  rw [readIpv4Addr, readOctets, hfirst] at h
  obtain ⟨⟨n, s'⟩, hread, h⟩ := Option.bind_eq_some_iff.mp h
  obtain ⟨⟨octets', rest'⟩, hoctets, heq⟩ := Option.bind_eq_some_iff.mp h
  obtain ⟨-, hrest⟩ := Prod.mk.inj (Option.some.inj heq)
  have hoctets : readOctets 3 1 s' = some (octets', rest) := by
    rw [← hrest]
    exact hoctets
  obtain ⟨runs, hlength, hruns, rfl⟩ := readOctets_some hoctets
  obtain ⟨run, hne, hdigits, rfl⟩ := readNumber_some hread
  have hrun : IsDecimal run := ⟨hne, fun c hc => isDigit_of_toDigit (hdigits c hc)⟩
  refine ⟨run :: runs, by rw [List.length_cons, hlength],
    List.forall_mem_cons.mpr ⟨hrun, hruns⟩, ?_⟩
  rw [intercalate_cons, List.append_assoc]

theorem readGroups_without_colon {s : List Char} (h : ':' ∉ s) (left i : Nat) :
    readGroups left (i+1) s = ([], false, s) := by
  have hnone : ∀ {α : Type} (inner : List Char → Option α),
      readSeparator ':' (i+1) inner s = none := by
    intro α inner
    cases s with
    | nil => rfl
    | cons c s =>
      have hc : c ≠ ':' := fun hc => h (hc ▸ List.mem_cons_self)
      simp [readSeparator, hc]
  cases left with
  | zero => rfl
  | succ left =>
    rw [readGroups, hnone, hnone, ite_self]

theorem readIpv6Addr_none {s : List Char} (h : ':' ∉ s) : readIpv6Addr s = none := by
  have hshort : ∀ (head : List Nat) (rest : List Char), head.length < 8 → ':' ∉ rest →
      readGroups 8 0 s = (head, false, rest) → readIpv6Addr s = none := by
    intro head rest hlength hrest hgroups
    rw [readIpv6Addr, hgroups]
    simp only [if_neg (Nat.ne_of_lt hlength)]
    split
    · rename_i hfalse
      cases hfalse
    · split
      · simp at hrest
      · rfl
  have hfour : (if 7 = 0 then none else readSeparator ':' 0 readIpv4Addr s) = readIpv4Addr s := rfl
  have hsix : readSeparator ':' 0 (readNumber 16 4 65536 true) s =
      readNumber 16 4 65536 true s := rfl
  have hgroups := readGroups.eq_2 0 s 7
  rw [hfour, hsix] at hgroups
  cases hv4 : readIpv4Addr s with
  | some found =>
    obtain ⟨octets, rest⟩ := found
    rw [hv4] at hgroups
    rw [readIpv6Addr, hgroups]
    rfl
  | none =>
    rw [hv4] at hgroups
    cases hnumber : readNumber 16 4 65536 true s with
    | none =>
      rw [hnumber] at hgroups
      exact hshort [] s (by decide) h hgroups
    | some found =>
      obtain ⟨n, rest⟩ := found
      obtain ⟨run, -, -, rfl⟩ := readNumber_some hnumber
      have hrest : ':' ∉ rest := fun hc => h (List.mem_append_right _ hc)
      rw [hnumber] at hgroups
      simp only [readGroups_without_colon hrest 7 0] at hgroups
      exact hshort [n] rest (by simp) hrest hgroups

/-- A text without a colon that is read as an address is four numbers between dots. -/
theorem parseIpAddr_some {s : List Char} {address : IpAddr} (h : ':' ∉ s)
    (hparse : parseIpAddr s = some address) :
    ∃ runs : List (List Char), runs.length = 4 ∧ (∀ run ∈ runs, IsDecimal run) ∧
      s = ['.'].intercalate runs := by
  unfold parseIpAddr at hparse
  split at hparse
  · next octets rest hfour =>
    obtain ⟨runs, hlength, hruns, hs⟩ := readIpv4Addr_some hfour
    split at hparse
    · next hrest =>
      rw [hrest, List.append_nil] at hs
      exact ⟨runs, hlength, hruns, hs⟩
    · cases hparse
  · rw [readIpv6Addr_none h] at hparse
    cases hparse

end Cinder.HostClient
