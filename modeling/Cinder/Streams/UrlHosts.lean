import Cinder.Streams.DecimalTexts
import Mathlib
set_option autoImplicit false

/-!
The hosts that a URL can have, and the text of each: names, which do not end in a number, and
addresses of four bytes and of eight groups.
-/

namespace Cinder.Streams

/-- What is left of a name after its conversion to ASCII. -/
def isDomainChar (c : Char) : Bool :=
  0x21 ≤ c.toNat && c.toNat ≤ 0x7E && !c.isUpper && !("#%/:<>?@[\\]^|".toList.contains c)

/-- What is read as one number of an IPv4 address: digits, or hexadecimal ones behind `0x`. -/
def isIpv4Number (s : List Char) : Bool :=
  decide (IsDecimal s) || match s with
    | '0' :: x :: digits => (x = 'x' || x = 'X') && digits.all fun c => (readHexDigit c).isSome
    | _ => false

/-- One dot at the end is passed over. -/
def lastLabel (s : List Char) : Option (List Char) :=
  let labels := s.splitOn '.'
  if labels.getLast? = some [] then labels.dropLast.getLast? else labels.getLast?

def endsInNumber (s : List Char) : Bool := (lastLabel s).any isIpv4Number

structure DomainName where
  text : List Char
  nonempty : text ≠ []
  chars : ∀ c ∈ text, isDomainChar c = true
  noNumber : endsInNumber text = false

structure Ipv4Address where
  octets : List Nat
  length : octets.length = 4
  small : ∀ n ∈ octets, n < 256

structure Ipv6Address where
  groups : List Nat
  length : groups.length = 8
  small : ∀ n ∈ groups, n < 65536

inductive WebHost where
  | domain (name : DomainName)
  | ipv4 (address : Ipv4Address)
  | ipv6 (address : Ipv6Address)

def decimals (octets : List Nat) : List Char := ['.'].intercalate (octets.map (Nat.toDigits 10))

def hexGroups (groups : List Nat) : List Char := [':'].intercalate (groups.map (Nat.toDigits 16))

def zeroRun (groups : List Nat) : Option (Nat × Nat) :=
  [8, 7, 6, 5, 4, 3, 2].findSome? fun n =>
    ((List.range (9-n)).find? fun i => ((groups.drop i).take n).all (· = 0)).map fun i => (i, n)

def compressed (groups : List Nat) : List Char :=
  match zeroRun groups with
  | none => hexGroups groups
  | some (i, n) => hexGroups (groups.take i) ++ "::".toList ++ hexGroups (groups.drop (i+n))

/-- The `hostname` of a URL. -/
def WebHost.hostname : WebHost → List Char
  | .domain name => name.text
  | .ipv4 address => decimals address.octets
  | .ipv6 address => '[' :: compressed address.groups ++ [']']

theorem isIpv4Number_decimal {s : List Char} (h : IsDecimal s) : isIpv4Number s = true := by
  unfold isIpv4Number
  rw [decide_eq_true h, Bool.true_or]

theorem DomainName.not_mem (name : DomainName) {c : Char} (hc : isDomainChar c = false) :
    c ∉ name.text := fun h => by
  rw [name.chars c h] at hc
  cases hc

theorem DomainName.not_upper (name : DomainName) : ∀ c ∈ name.text, ¬('A' ≤ c ∧ c ≤ 'Z') := by
  intro c hc hupper
  have hchar := name.chars c hc
  have hisUpper : c.isUpper = true := by
    simp only [Char.isUpper, decide_eq_true_eq]
    exact hupper
  simp [isDomainChar, hisUpper] at hchar

theorem zeroRun_some {groups : List Nat} (hlength : groups.length = 8) {i n : Nat}
    (h : zeroRun groups = some (i, n)) :
    2 ≤ n ∧ i+n ≤ 8 ∧
      groups = groups.take i ++ List.replicate n 0 ++ groups.drop (i+n) := by
  obtain ⟨m, hm, hfind⟩ := List.exists_of_findSome?_eq_some h
  obtain ⟨j, hj, heq⟩ := Option.map_eq_some_iff.mp hfind
  cases heq
  have hrange := List.mem_range.mp (List.mem_of_find?_eq_some hj)
  have hzero := List.find?_some hj
  have hn : 2 ≤ n ∧ n ≤ 8 := by
    simp only [List.mem_cons, List.not_mem_nil, or_false] at hm
    omega
  have hrun : (groups.drop i).take n = List.replicate n 0 := by
    rw [List.eq_replicate_iff]
    refine ⟨by simp; omega, fun g hg => ?_⟩
    simpa using List.all_eq_true.mp hzero g hg
  refine ⟨hn.1, by omega, ?_⟩
  rw [← hrun, List.append_assoc, ← List.drop_drop, List.take_append_drop, List.take_append_drop]

end Cinder.Streams
