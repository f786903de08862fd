import Cinder.Ecma.NumberTexts
import Cinder.Host.HostValues
import Cinder.HostClient.AddressTexts
import Cinder.Programs.CheckedLists
import Mathlib.Data.Nat.SuccPred
set_option autoImplicit false

namespace Cinder.Teacher
open Cinder.Ecma Cinder.Host

/-- A bracket at each end is left out, and then a dot at the end. -/
def hostText (hostname : List Char) : List Char :=
  let s := if hostname.head? = some '[' then hostname.tail else hostname
  let s := if s.getLast? = some ']' then s.dropLast else s
  let s := if s.getLast? = some '.' then s.dropLast else s
  (lower (String.ofList s)).toList

/-- `Number.isInteger(part) && part >= 0 && part <= 255`. -/
def octet? (part : List Char) : Option ℕ :=
  (number part).bind fun q => if q.den = 1 ∧ 0 ≤ q ∧ q ≤ 255 then some q.num.toNat else none

/-- `host.split(".").map(Number)`, if these are four octets. -/
def ipv4Octets (host : List Char) : Option (List ℕ) :=
  let parts := host.splitOn '.'
  if parts.length = 4 then parts.mapM octet? else none

def localOctets (octets : List ℕ) : Bool :=
  let a := octets.getD 0 0
  let b := octets.getD 1 0
  a = 127 || a = 10 || (a = 172 && 16 ≤ b && b ≤ 31) || (a = 192 && b = 168) ||
    (a = 169 && b = 254)

def localName (host : List Char) : Bool :=
  host = "localhost".toList || ".local".toList.isSuffixOf host

/-- `isLocalNetworkHost`. -/
def isLocalNetworkHost (hostname : List Char) : Bool :=
  let host := hostText hostname
  if localName host then true
  else match ipv4Octets host with
    | some octets => localOctets octets
    | none =>
      if host = "::1".toList then true
      else if ':' ∉ host then false
      else
        let first := (host.splitOn ':').headD []
        let firstGroup := parseHexInt (if first = [] then ['0'] else first)
        maskInt32 firstGroup 0xfe00 = 0xfc00 || maskInt32 firstGroup 0xffc0 = 0xfe80

end Cinder.Teacher

/-!
The two tests for a host on the local network, on the hosts that a URL can have.
-/

namespace Cinder.Teacher
open Cinder.Ecma Cinder.Host Cinder.HostClient Cinder.Programs Cinder.Streams

section Texts

def dropDot (s : List Char) : List Char := if s.getLast? = some '.' then s.dropLast else s

theorem lower_of_forall {s : List Char} (h : ∀ c ∈ s, ¬('A' ≤ c ∧ c ≤ 'Z')) :
    (lower (String.ofList s)).toList = s := by
  rw [lower, String.toList_ofList, String.toList_ofList]
  exact (List.map_congr_left fun c hc => if_neg (h c hc)).trans (List.map_id s)

theorem hostText_of_plain {s : List Char} (hopen : '[' ∉ s) (hclose : ']' ∉ s)
    (hupper : ∀ c ∈ s, ¬('A' ≤ c ∧ c ≤ 'Z')) : hostText s = dropDot s := by
  have hhead : s.head? ≠ some '[' := fun h => hopen (List.mem_of_mem_head? h)
  have hlast : s.getLast? ≠ some ']' := fun h => hclose (List.mem_of_mem_getLast? h)
  have hlower : ∀ c ∈ dropDot s, ¬('A' ≤ c ∧ c ≤ 'Z') := by
    unfold dropDot
    split
    · exact fun c hc => hupper c (List.dropLast_subset s hc)
    · exact hupper
  simp only [hostText, if_neg hhead, if_neg hlast]
  exact lower_of_forall hlower

theorem trimEndDots_append (s : List Char) :
    ∃ k, s = trimEndDots s ++ List.replicate k '.' ∧ (trimEndDots s).getLast? ≠ some '.' := by
  have htrim : trimEndDots s = s.rdropWhile (· = '.') := rfl
  have hdots : s.rtakeWhile (· = '.') = List.replicate (s.rtakeWhile (· = '.')).length '.' := by
    rw [List.eq_replicate_iff]
    exact ⟨rfl, fun c hc => of_decide_eq_true (List.mem_rtakeWhile_imp (p := (· = '.')) hc)⟩
  refine ⟨(s.rtakeWhile (· = '.')).length, ?_, fun hlast => ?_⟩
  · rw [htrim, ← hdots, List.rdropWhile_append_rtakeWhile]
  · rw [htrim] at hlast
    have hne : s.rdropWhile (· = '.') ≠ [] := fun h => by simp [h] at hlast
    rw [List.getLast?_eq_getLast_of_ne_nil hne, Option.some.injEq] at hlast
    exact List.rdropWhile_last_not _ _ hne (decide_eq_true hlast)

theorem splitOn_dots (s : List Char) (k : ℕ) :
    (s ++ List.replicate k '.').splitOn '.' = s.splitOn '.' ++ List.replicate k [] := by
  induction k with
  | zero => simp
  | succ k ih =>
    rw [List.replicate_succ', ← List.append_assoc, List.splitOn_append_cons_self, ih,
      List.replicate_succ', List.append_assoc]
    rfl

end Texts

/-- `localhost`, a name under `local`, or a local address. -/
def LocalBase (base : List Char) : Prop :=
  localName base = true ∨ (parseIpAddr base).any IpAddr.isLocal = true

/-- Up to one dot at the end, four numbers as a script writes them, which make a local address. -/
def SpelledLocal (name : List Char) : Prop := (ipv4Octets (dropDot name)).any localOctets = true

def Agreed : WebHost → Prop
  | .domain name => ¬SpelledLocal name.text ∧
      ¬(LocalBase (trimEndDots name.text) ∧ "..".toList <:+ name.text)
  | _ => True

theorem stripBrackets_of_not_mem {s : List Char} (h : '[' ∉ s) : stripBrackets s = s := by
  unfold stripBrackets
  split
  · exact absurd List.mem_cons_self h
  · rfl

theorem host_isLocalNetworkHost_iff {s base : List Char}
    (hbase : stripBrackets (trimEndDots s) = base) (hupper : ∀ c ∈ base, ¬('A' ≤ c ∧ c ≤ 'Z')) :
    HostClient.isLocalNetworkHost (String.ofList s) = true ↔ LocalBase base := by
  have hlower := lower_of_forall hupper
  unfold HostClient.isLocalNetworkHost LocalBase localName
  rw [String.toList_ofList, hbase]
  dsimp only
  rw [hlower, Bool.or_eq_true]

section Names
variable {base : List Char}

theorem ipv4Octets_some {name : List Char} {octets : List ℕ} (h : ipv4Octets name = some octets) :
    (name.splitOn '.').length = 4 ∧
      List.Forall₂ (fun part n => octet? part = some n) (name.splitOn '.') octets := by
  simp only [ipv4Octets] at h
  split at h
  · next hlength => exact ⟨hlength, mapM_eq_some.mp h⟩
  · cases h

theorem ipv4Octets_of_label {name part : List Char} (hpart : part ∈ name.splitOn '.')
    (h : number part = none) : ipv4Octets name = none := by
  by_contra hsome
  obtain ⟨octets, hoctets⟩ := Option.ne_none_iff_exists'.mp hsome
  obtain ⟨n, -, hn⟩ := exists_of_forall₂ (ipv4Octets_some hoctets).2 hpart
  rw [octet?, h] at hn
  cases hn

theorem number_localhost : number "localhost".toList = none := rfl

theorem number_local : number "local".toList = none := rfl

theorem ipv4Octets_of_localName (h : localName base = true) (k : ℕ) :
    ipv4Octets (base ++ List.replicate k '.') = none := by
  rw [localName, Bool.or_eq_true, decide_eq_true_eq, List.isSuffixOf_iff_suffix] at h
  rcases h with rfl | ⟨front, rfl⟩
  · refine ipv4Octets_of_label ?_ number_localhost
    rw [splitOn_dots]
    exact List.mem_append_left _ (by decide)
  · refine ipv4Octets_of_label ?_ number_local
    have hlocal : ".local".toList = '.' :: "local".toList := by decide
    rw [splitOn_dots, hlocal, List.splitOn_append_cons_self]
    exact List.mem_append_left _ (List.mem_append_right _ (by decide))

theorem splitOn_runs {runs : List (List Char)} (hlength : runs.length = 4)
    (hruns : ∀ run ∈ runs, IsDecimal run) : (['.'].intercalate runs).splitOn '.' = runs :=
  List.splitOn_intercalate '.' (fun run hrun => (hruns run hrun).not_mem (by decide))
    (List.ne_nil_of_length_eq_add_one hlength)

theorem ipv4Octets_of_parsed (hcolon : ':' ∉ base) {address : IpAddr}
    (h : parseIpAddr base = some address) {k : ℕ} (hk : 0 < k) :
    ipv4Octets (base ++ List.replicate k '.') = none := by
  by_contra hsome
  obtain ⟨octets, hoctets⟩ := Option.ne_none_iff_exists'.mp hsome
  obtain ⟨runs, hlength, hruns, rfl⟩ := parseIpAddr_some hcolon h
  have hfour := (ipv4Octets_some hoctets).1
  rw [splitOn_dots, splitOn_runs hlength hruns, List.length_append, List.length_replicate] at hfour
  omega

/-- A name does not end in a number, and so it is no address with at most one dot behind it. -/
theorem parseIpAddr_of_noNumber (hcolon : ':' ∉ base) {k : ℕ} (hk : k ≤ 1)
    (h : endsInNumber (base ++ List.replicate k '.') = false) : parseIpAddr base = none := by
  by_contra hsome
  obtain ⟨address, haddress⟩ := Option.ne_none_iff_exists'.mp hsome
  obtain ⟨runs, hlength, hruns, rfl⟩ := parseIpAddr_some hcolon haddress
  have hne : runs ≠ [] := List.ne_nil_of_length_eq_add_one hlength
  have hlast : lastLabel (['.'].intercalate runs ++ List.replicate k '.') =
      some (runs.getLast hne) := by
    have hgetLast : runs.getLast? = some (runs.getLast hne) := List.getLast?_eq_some_getLast hne
    unfold lastLabel
    rw [splitOn_dots, splitOn_runs hlength hruns]
    rcases Nat.le_one_iff_eq_zero_or_eq_one.mp hk with rfl | rfl
    · have hfull : runs.getLast? ≠ some [] := by
        rw [hgetLast]
        exact fun heq => (hruns _ (List.getLast_mem hne)).1 (Option.some.inj heq)
      rw [List.replicate_zero, List.append_nil]
      exact (if_neg hfull).trans hgetLast
    · simp [hgetLast]
  rw [endsInNumber, hlast, Option.any_some,
    isIpv4Number_decimal (hruns _ (List.getLast_mem hne))] at h
  cases h

end Names

section Domains
variable (name : DomainName)

theorem isLocalNetworkHost_domain :
    isLocalNetworkHost name.text = true ↔
      localName (dropDot name.text) = true ∨ SpelledLocal name.text := by
  have hcolon : ':' ∉ dropDot name.text := by
    unfold dropDot
    split
    · exact fun h => name.not_mem (by decide) (List.dropLast_subset name.text h)
    · exact name.not_mem (by decide)
  have hgroup : dropDot name.text ≠ "::1".toList := fun h => hcolon (h ▸ (by decide))
  unfold isLocalNetworkHost SpelledLocal
  rw [hostText_of_plain (name.not_mem (by decide)) (name.not_mem (by decide)) name.not_upper]
  dsimp only
  split
  · next h => simp [h]
  · next h =>
    split
    · next octets hoctets => simp [h, hoctets]
    · next hoctets => simp [h, hoctets]

theorem host_isLocalNetworkHost_domain :
    HostClient.isLocalNetworkHost (String.ofList name.text) = true ↔
      LocalBase (trimEndDots name.text) := by
  have hsub : ∀ c ∈ trimEndDots name.text, c ∈ name.text := fun c hc =>
    (List.rdropWhile_prefix (· = '.') name.text).subset hc
  exact host_isLocalNetworkHost_iff
    (stripBrackets_of_not_mem fun h => name.not_mem (by decide) (hsub '[' h))
    fun c hc => name.not_upper c (hsub c hc)

theorem dropDot_dots {base : List Char} (hlast : base.getLast? ≠ some '.') (k : ℕ) :
    dropDot (base ++ List.replicate k '.') = base ++ List.replicate (k-1) '.' := by
  cases k with
  | zero =>
    rw [List.replicate_zero, List.append_nil]
    exact if_neg hlast
  | succ k =>
    rw [List.replicate_succ', ← List.append_assoc]
    simp [dropDot]

theorem two_dots_iff {base : List Char} (hlast : base.getLast? ≠ some '.') (k : ℕ) :
    "..".toList <:+ base ++ List.replicate k '.' ↔ 2 ≤ k := by
  constructor
  · rintro ⟨front, h⟩
    by_contra hk
    rcases Nat.le_one_iff_eq_zero_or_eq_one.mp (by omega : k ≤ 1) with rfl | rfl
    · refine hlast ?_
      rw [List.replicate_zero, List.append_nil] at h
      rw [← h]
      simp
    · refine hlast ?_
      have hdots : front ++ ['.'] ++ ['.'] = base ++ ['.'] := by simpa using h
      rw [← List.append_cancel_right hdots]
      simp
  · intro hk
    obtain ⟨j, rfl⟩ : ∃ j, k = j+2 := ⟨k-2, by omega⟩
    refine ⟨base ++ List.replicate j '.', ?_⟩
    rw [List.replicate_add, ← List.append_assoc]
    rfl

theorem localName_dots (base : List Char) (k : ℕ) :
    localName (base ++ List.replicate (k+1) '.') = false := by
  rw [List.replicate_succ', ← List.append_assoc]
  generalize base ++ List.replicate k '.' = front
  rw [localName, Bool.or_eq_false_iff]
  refine ⟨decide_eq_false fun h => ?_, Bool.eq_false_iff.mpr fun h => ?_⟩
  · have hlast := congrArg List.getLast? h
    simp at hlast
  · obtain ⟨t, ht⟩ := List.isSuffixOf_iff_suffix.mp h
    have hlast := congrArg List.getLast? ht
    simp at hlast

theorem domain_agreed_iff :
    isLocalNetworkHost name.text = HostClient.isLocalNetworkHost (String.ofList name.text) ↔
      Agreed (.domain name) := by
  obtain ⟨k, htext, hlast⟩ := trimEndDots_append name.text
  have hcolon : ':' ∉ trimEndDots name.text := fun h =>
    name.not_mem (by decide) ((List.rdropWhile_prefix (· = '.') name.text).subset h)
  have hnumber := name.noNumber
  have hteacher := isLocalNetworkHost_domain name
  have hhost := host_isLocalNetworkHost_domain name
  rw [Bool.eq_iff_iff, hteacher, hhost, Agreed, SpelledLocal]
  rw [htext] at hnumber
  generalize hbase : trimEndDots name.text = base at *
  rw [htext, dropDot_dots hlast, two_dots_iff hlast]
  by_cases hk : k ≤ 1
  · have hone : k-1 = 0 := by omega
    have hname : localName base = true → ipv4Octets base = none := fun h => by
      have hnone := ipv4Octets_of_localName h 0
      rwa [List.replicate_zero, List.append_nil] at hnone
    rw [hone, List.replicate_zero, List.append_nil, LocalBase,
      parseIpAddr_of_noNumber hcolon hk hnumber]
    by_cases h : localName base = true
    · simp [h, hname h, hk]
    · simp [h]
  · obtain ⟨j, rfl⟩ : ∃ j, k = j+2 := ⟨k-2, by omega⟩
    have hbase : LocalBase base → ipv4Octets (base ++ List.replicate (j+1) '.') = none := by
      rintro (h | h)
      · exact ipv4Octets_of_localName h _
      · obtain ⟨address, haddress⟩ := Option.isSome_iff_exists.mp (Option.isSome_of_any h)
        exact ipv4Octets_of_parsed hcolon haddress (Nat.succ_pos j)
    have hnone : localName (base ++ List.replicate (j+2-1) '.') = false := localName_dots base j
    rw [hnone]
    by_cases h : LocalBase base
    · simp [h, hbase h]
    · simp [h]

end Domains

section Addresses

theorem trimEndDots_eq_self {s : List Char} (h : s.getLast? ≠ some '.') : trimEndDots s = s := by
  refine List.rdropWhile_eq_self_iff.mpr fun hne => ?_
  rw [List.getLast?_eq_some_getLast hne] at h
  simpa using h

theorem localName_of_not_mem {s : List Char} (h : 'l' ∉ s) : localName s = false := by
  rw [localName, Bool.or_eq_false_iff]
  refine ⟨decide_eq_false fun heq => h (heq ▸ (by decide)), Bool.eq_false_iff.mpr fun hsuffix => ?_⟩
  exact h ((List.isSuffixOf_iff_suffix.mp hsuffix).subset (by decide))

theorem octet?_toDigits {n : ℕ} (h : n < 256) : octet? (Nat.toDigits 10 n) = some n := by
  have hvalue : Nat.ofDigitChars 10 (Nat.toDigits 10 n) 0 = n := Nat.ofDigitChars_ten_toDigits
  have hnumber := number_decimal (isDecimal_toDigits n) (by rw [hvalue]; omega)
  rw [hvalue] at hnumber
  have hle : (n : ℚ) ≤ 255 := by exact_mod_cast Nat.le_of_lt_succ h
  rw [octet?, hnumber]
  simp [hle]

theorem not_upper_of_isDigit {c : Char} (h : c.isDigit = true) : ¬('A' ≤ c ∧ c ≤ 'Z') := by
  simp only [Char.isDigit, Bool.and_eq_true, decide_eq_true_eq, UInt32.le_iff_toNat_le] at h
  have hhigh : c.toNat ≤ 57 := h.2
  intro hupper
  have hlow : 65 ≤ c.toNat := UInt32.le_iff_toNat_le.mp hupper.1
  omega

theorem mem_decimals {octets : List ℕ} {c : Char} (h : c ∈ decimals octets) :
    c = '.' ∨ c.isDigit = true := by
  cases octets with
  | nil => cases h
  | cons n octets =>
    rw [decimals, List.map_cons, intercalate_cons, List.mem_append, separated] at h
    rcases h with h | h
    · exact .inr ((isDecimal_toDigits n).2 c h)
    · simp only [List.mem_flatten, List.mem_map] at h
      obtain ⟨_, ⟨_, ⟨m, -, rfl⟩, rfl⟩, hc⟩ := h
      rcases List.mem_cons.mp hc with rfl | hc
      · exact .inl rfl
      · exact .inr ((isDecimal_toDigits m).2 c hc)

variable (address : Ipv4Address)

theorem splitOn_decimals :
    (decimals address.octets).splitOn '.' = address.octets.map (Nat.toDigits 10) := by
  refine List.splitOn_intercalate '.' (fun run hrun => ?_) fun hnil => ?_
  · obtain ⟨n, -, rfl⟩ := List.mem_map.mp hrun
    exact (isDecimal_toDigits n).not_mem (by decide)
  · have hlength := address.length
    rw [List.map_eq_nil_iff.mp hnil] at hlength
    cases hlength

theorem ipv4Octets_decimals : ipv4Octets (decimals address.octets) = some address.octets := by
  have hlength : (address.octets.map (Nat.toDigits 10)).length = 4 := by
    rw [List.length_map, address.length]
  simp only [ipv4Octets, splitOn_decimals, if_pos hlength]
  rw [mapM_eq_some, List.forall₂_map_left_iff, List.forall₂_same]
  exact fun n hn => octet?_toDigits (address.small n hn)

theorem decimals_getLast? : (decimals address.octets).getLast? ≠ some '.' := by
  intro hlast
  obtain ⟨t, ht⟩ := List.getLast?_eq_some_iff.mp hlast
  have hsplit := splitOn_decimals address
  rw [ht, List.splitOn_append_cons_self] at hsplit
  have hmem : [] ∈ address.octets.map (Nat.toDigits 10) := by
    rw [← hsplit]
    exact List.mem_append_right _ List.mem_cons_self
  obtain ⟨n, -, hn⟩ := List.mem_map.mp hmem
  exact Nat.toDigits_ne_nil hn

theorem ipv4_agreed :
    isLocalNetworkHost (decimals address.octets) =
      HostClient.isLocalNetworkHost (String.ofList (decimals address.octets)) := by
  have hnot : ∀ c : Char, c ≠ '.' → c.isDigit = false → c ∉ decimals address.octets := by
    intro c hdot hdigit hc
    rcases mem_decimals hc with h | h
    · exact hdot h
    · rw [h] at hdigit
      cases hdigit
  have hupper : ∀ c ∈ decimals address.octets, ¬('A' ≤ c ∧ c ≤ 'Z') := by
    intro c hc
    rcases mem_decimals hc with rfl | h
    · decide
    · exact not_upper_of_isDigit h
  have hlast := decimals_getLast? address
  have hname := localName_of_not_mem (hnot 'l' (by decide) (by decide))
  have htext : hostText (decimals address.octets) = decimals address.octets := by
    rw [hostText_of_plain (hnot _ (by decide) (by decide)) (hnot _ (by decide) (by decide)) hupper]
    exact if_neg hlast
  have hbase : stripBrackets (trimEndDots (decimals address.octets)) = decimals address.octets := by
    rw [trimEndDots_eq_self hlast, stripBrackets_of_not_mem (hnot _ (by decide) (by decide))]
  have hteacher : isLocalNetworkHost (decimals address.octets) = localOctets address.octets := by
    unfold isLocalNetworkHost
    rw [htext]
    dsimp only
    rw [ipv4Octets_decimals, hname]
    rfl
  rw [hteacher, Bool.eq_iff_iff, host_isLocalNetworkHost_iff hbase hupper, LocalBase, hname,
    parseIpAddr_decimals address.length address.small]
  simp [localOctets, IpAddr.isLocal]

end Addresses

section Groups

def hexChars : List Char := "0123456789abcdef".toList

theorem mem_hexChars (n : ℕ) : ∀ c ∈ Nat.toDigits 16 n, c ∈ hexChars := by
  have hdigit : ∀ d < 16, Nat.digitChar d ∈ hexChars := by decide
  induction n using Nat.base_induction 16 (by decide) with
  | single m hm =>
    rw [Nat.toDigits_of_lt_base hm]
    exact List.forall_mem_singleton.mpr (hdigit m hm)
  | digit m k hk hm ih =>
    rw [← Nat.toDigits_append_toDigits (by decide) hm hk, Nat.toDigits_of_lt_base hk]
    exact List.forall_mem_append.mpr ⟨ih, List.forall_mem_singleton.mpr (hdigit k hk)⟩

theorem mem_hexGroups {groups : List ℕ} {c : Char} (h : c ∈ hexGroups groups) :
    c = ':' ∨ c ∈ hexChars := by
  cases groups with
  | nil => cases h
  | cons n groups =>
    rw [hexGroups, List.map_cons, intercalate_cons, List.mem_append, separated] at h
    rcases h with h | h
    · exact .inr (mem_hexChars n c h)
    · simp only [List.mem_flatten, List.mem_map] at h
      obtain ⟨_, ⟨_, ⟨m, -, rfl⟩, rfl⟩, hc⟩ := h
      rcases List.mem_cons.mp hc with rfl | hc
      · exact .inl rfl
      · exact .inr (mem_hexChars m c hc)

theorem mem_compressed {groups : List ℕ} {c : Char} (h : c ∈ compressed groups) :
    c = ':' ∨ c ∈ hexChars := by
  unfold compressed at h
  split at h
  · exact mem_hexGroups h
  · simp only [List.mem_append] at h
    rcases h with (h | h) | h
    · exact mem_hexGroups h
    · exact .inl (by simpa using h)
    · exact mem_hexGroups h

theorem separated_colon (parts : List (List Char)) (t : List Char) :
    ∃ rest, separated ':' parts ++ ':' :: t = ':' :: rest := by
  cases parts with
  | nil => exact ⟨t, rfl⟩
  | cons part parts => exact ⟨_, rfl⟩

theorem foldl_hexDigits (n : ℕ) :
    ((Nat.toDigits 16 n).filterMap readHexDigit).foldl (fun n d => 16*n+d) 0 = n := by
  have hdigit : ∀ d < 16, readHexDigit (Nat.digitChar d) = some d := by decide
  induction n using Nat.base_induction 16 (by decide) with
  | single m hm => simp [Nat.toDigits_of_lt_base hm, hdigit m hm]
  | digit m k hk hm ih =>
    rw [← Nat.toDigits_append_toDigits (by decide) hm hk, Nat.toDigits_of_lt_base hk,
      List.filterMap_append, List.foldl_append, ih]
    simp [hdigit k hk]

theorem parseHexInt_toDigits (n : ℕ) : parseHexInt (Nat.toDigits 16 n) = some (n : ℤ) := by
  have hplain : hexChars.all (fun c => !isWhiteSpace c && c ≠ '-' && c ≠ '+' && c ≠ 'x' &&
      c ≠ 'X' && (readHexDigit c).isSome) = true := by decide
  have hchars : ∀ c ∈ Nat.toDigits 16 n, isWhiteSpace c = false ∧ c ≠ '-' ∧ c ≠ '+' ∧ c ≠ 'x' ∧
      c ≠ 'X' ∧ (readHexDigit c).isSome = true := fun c hc => by
    simpa [and_assoc] using List.all_eq_true.mp hplain c (mem_hexChars n c hc)
  have hfold := foldl_hexDigits n
  have hne : Nat.toDigits 16 n ≠ [] := Nat.toDigits_ne_nil
  generalize Nat.toDigits 16 n = s at *
  obtain ⟨c, s, rfl⟩ := List.exists_cons_of_ne_nil hne
  have hfirst := hchars c List.mem_cons_self
  have hspace : (c :: s).dropWhile isWhiteSpace = c :: s :=
    List.dropWhile_cons_of_neg (by simp [hfirst.1])
  have hdigits : (c :: s).takeWhile (fun c => (readHexDigit c).isSome) = c :: s :=
    List.takeWhile_eq_self_iff.mpr fun d hd => (hchars d hd).2.2.2.2.2
  have hsome : (c :: s).filterMap readHexDigit ≠ [] := by
    obtain ⟨d, hd⟩ := Option.isSome_iff_exists.mp hfirst.2.2.2.2.2
    simp [hd]
  have hsign : readSign (c :: s) = (false, c :: s) :=
    readSign_of_plain (by simpa using hfirst.2.1) (by simpa using hfirst.2.2.1)
  have hfront : dropHexPrefix (c :: s) = c :: s :=
    dropHexPrefix_of_plain ⟨fun h => (hchars _ h).2.2.2.1 rfl, fun h => (hchars _ h).2.2.2.2.1 rfl⟩
  simp only [parseHexInt, hspace, hsign, hfront, hdigits, if_neg hsome, hfold]
  rfl

theorem maskInt32_natCast {n : ℕ} (h : n < 65536) (mask : ℕ) :
    maskInt32 (some (n : ℤ)) mask = n &&& mask := by
  have hn : ((n : ℤ) % 4294967296).toNat = n := by omega
  rw [maskInt32, Option.getD_some, hn]

variable (address : Ipv6Address)

/-- Only the loopback address is written as `::1`. -/
theorem compressed_loopback_iff :
    compressed address.groups = "::1".toList ↔ address.groups = [0, 0, 0, 0, 0, 0, 0, 1] := by
  constructor
  · intro h
    have hparse := parseIpAddr_compressed address.length address.small
    have hone : parseIpAddr "::1".toList = some (.v6 [0, 0, 0, 0, 0, 0, 0, 1]) := by decide
    rw [h, hone] at hparse
    exact (IpAddr.v6.inj (Option.some.inj hparse)).symm
  · intro h
    rw [h]
    decide

theorem first_compressed :
    ∃ first rest, compressed address.groups = first ++ ':' :: rest ∧
      (first = Nat.toDigits 16 (address.groups.getD 0 0) ∨
        (first = [] ∧ address.groups.getD 0 0 = 0)) := by
  unfold compressed
  split
  · have hlength := address.length
    obtain ⟨n, more, hn⟩ := List.exists_cons_of_length_eq_add_one hlength
    rw [hn, List.length_cons, Nat.add_right_cancel_iff] at hlength
    obtain ⟨m, groups, hm⟩ := List.exists_cons_of_length_eq_add_one hlength
    rw [hn, hm, hexGroups, List.map_cons, List.map_cons, intercalate_cons]
    exact ⟨_, _, rfl, .inl rfl⟩
  · next i k hzeros =>
    obtain ⟨hk, hi, hgroups⟩ := zeroRun_some address.length hzeros
    cases i with
    | zero =>
      obtain ⟨j, rfl⟩ : ∃ j, k = j+1 := ⟨k-1, by omega⟩
      refine ⟨[], _, rfl, .inr ⟨rfl, ?_⟩⟩
      rw [hgroups]
      rfl
    | succ i =>
      obtain ⟨n, groups, hcons⟩ := List.exists_cons_of_length_eq_add_one address.length
      obtain ⟨rest, hrest⟩ := separated_colon ((groups.take i).map (Nat.toDigits 16))
        (':' :: hexGroups (address.groups.drop (i+1+k)))
      refine ⟨Nat.toDigits 16 n, rest, ?_, .inl (by rw [hcons]; rfl)⟩
      rw [← hrest]
      nth_rewrite 1 [hcons]
      rw [List.take_succ_cons, hexGroups, List.map_cons, intercalate_cons]
      simp

theorem not_mem_compressed {c : Char} (hcolon : c ≠ ':') (hhex : c ∉ hexChars) :
    c ∉ compressed address.groups := fun h => (mem_compressed h).elim hcolon hhex

theorem compressed_not_upper : ∀ c ∈ compressed address.groups, ¬('A' ≤ c ∧ c ≤ 'Z') := by
  have hplain : hexChars.all (fun c => decide ¬('A' ≤ c ∧ c ≤ 'Z')) = true := by decide
  intro c hc
  rcases mem_compressed hc with rfl | h
  · decide
  · exact of_decide_eq_true (List.all_eq_true.mp hplain c h)

theorem hostText_ipv6 :
    hostText ('[' :: compressed address.groups ++ [']']) = compressed address.groups := by
  have hdot : (compressed address.groups).getLast? ≠ some '.' := fun h =>
    dot_not_mem_compressed _ (List.mem_of_mem_getLast? h)
  have hclose : (compressed address.groups ++ [']']).getLast? = some ']' := by simp
  have hopen : ('[' :: compressed address.groups ++ [']']).head? = some '[' := rfl
  have htail : ('[' :: compressed address.groups ++ [']']).tail =
      compressed address.groups ++ [']'] := rfl
  simp only [hostText, if_pos hopen, htail, if_pos hclose, List.dropLast_concat, if_neg hdot]
  exact lower_of_forall (compressed_not_upper address)

theorem parseHexInt_first :
    parseHexInt (if ((compressed address.groups).splitOn ':').headD [] = [] then ['0']
      else ((compressed address.groups).splitOn ':').headD []) =
        some (address.groups.getD 0 0 : ℤ) := by
  obtain ⟨first, rest, htext, hfirst⟩ := first_compressed address
  have hcolon : ':' ∉ first := by
    rcases hfirst with rfl | ⟨rfl, -⟩
    · exact fun h => absurd (mem_hexChars _ _ h) (by decide)
    · exact List.not_mem_nil
  rw [htext, List.splitOn_append_cons_self_of_not_mem hcolon, List.headD_cons]
  rcases hfirst with rfl | ⟨rfl, hzero⟩
  · rw [if_neg Nat.toDigits_ne_nil, parseHexInt_toDigits]
  · rw [if_pos rfl, hzero]
    rfl

theorem isLocalNetworkHost_ipv6 :
    isLocalNetworkHost ('[' :: compressed address.groups ++ [']']) =
      IpAddr.isLocal (.v6 address.groups) := by
  have hname := localName_of_not_mem (not_mem_compressed address (c := 'l') (by decide) (by decide))
  have hoctets : ipv4Octets (compressed address.groups) = none := by
    simp [ipv4Octets, List.splitOn_eq_singleton (dot_not_mem_compressed address.groups)]
  have hcolon : ¬ ':' ∉ compressed address.groups := by
    obtain ⟨first, rest, htext, -⟩ := first_compressed address
    rw [htext]
    simp
  have hsmall : address.groups.getD 0 0 < 65536 := by
    obtain ⟨n, more, hn⟩ := List.exists_cons_of_length_eq_add_one address.length
    have hmem := address.small n (by simp [hn])
    rw [hn]
    exact hmem
  unfold isLocalNetworkHost
  rw [hostText_ipv6]
  dsimp only
  rw [hname, hoctets, parseHexInt_first, maskInt32_natCast hsmall, maskInt32_natCast hsmall,
    if_neg hcolon]
  by_cases hone : address.groups = [0, 0, 0, 0, 0, 0, 0, 1]
  · rw [if_pos ((compressed_loopback_iff address).mpr hone), hone]
    rfl
  · have hone' : compressed address.groups ≠ "::1".toList := fun h =>
      hone ((compressed_loopback_iff address).mp h)
    rw [if_neg hone', IpAddr.isLocal, decide_eq_false hone, Bool.false_or]
    rfl

theorem ipv6_agreed :
    isLocalNetworkHost ('[' :: compressed address.groups ++ [']']) =
      HostClient.isLocalNetworkHost
        (String.ofList ('[' :: compressed address.groups ++ [']'])) := by
  have hname := localName_of_not_mem (not_mem_compressed address (c := 'l') (by decide) (by decide))
  have hdots : trimEndDots ('[' :: compressed address.groups ++ [']']) =
      '[' :: compressed address.groups ++ [']'] := by
    refine trimEndDots_eq_self ?_
    rw [List.getLast?_concat]
    decide
  have hbase : stripBrackets (trimEndDots ('[' :: compressed address.groups ++ [']'])) =
      compressed address.groups := by
    rw [hdots]
    simp [stripBrackets]
  rw [isLocalNetworkHost_ipv6, Bool.eq_iff_iff,
    host_isLocalNetworkHost_iff hbase (compressed_not_upper address), LocalBase, hname,
    parseIpAddr_compressed address.length address.small]
  simp

end Groups

/-- The two tests agree on addresses, and on names exactly if these neither spell a local address
in numbers nor have two dots behind a local host. -/
theorem local_policies_agree_iff (host : WebHost) :
    isLocalNetworkHost host.hostname =
      HostClient.isLocalNetworkHost (String.ofList host.hostname) ↔ Agreed host := by
  cases host with
  | domain name => exact domain_agreed_iff name
  | ipv4 address => exact iff_of_true (ipv4_agreed address) trivial
  | ipv6 address => exact iff_of_true (ipv6_agreed address) trivial

theorem dotted_chars : "10.0.0..".toList.all isDomainChar = true := by decide

/-- Empty labels count as zeros for the Teacher app. -/
def dottedName : DomainName where
  text := "10.0.0..".toList
  nonempty := by simp
  chars := List.all_eq_true.mp dotted_chars
  noNumber := rfl

theorem dotted_name_is_disputed :
    isLocalNetworkHost dottedName.text = true ∧
      HostClient.isLocalNetworkHost (String.ofList dottedName.text) = false := by
  have hparts : (dropDot dottedName.text).splitOn '.' =
      [Nat.toDigits 10 10, Nat.toDigits 10 0, Nat.toDigits 10 0, []] := by decide
  have hempty : octet? [] = some 0 := by simp [octet?, number_nil]
  have hoctets : ipv4Octets (dropDot dottedName.text) = some [10, 0, 0, 0] := by
    have hten := octet?_toDigits (n := 10) (by decide)
    have hzero := octet?_toDigits (n := 0) (by decide)
    rw [ipv4Octets, hparts]
    exact mapM_eq_some.mpr (.cons hten (.cons hzero (.cons hzero (.cons hempty .nil))))
  refine ⟨(isLocalNetworkHost_domain dottedName).mpr (.inr ?_), by decide⟩
  rw [SpelledLocal, hoctets]
  rfl

end Cinder.Teacher
