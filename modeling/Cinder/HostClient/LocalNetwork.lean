import Cinder.Host.HostValues
set_option autoImplicit false

namespace Cinder.HostClient
open Cinder.Host

inductive IpAddr where
  | v4 (octets : List Nat)
  | v6 (segments : List Nat)
  deriving DecidableEq, Repr

/-- `to_digit`. -/
def toDigit (radix : Nat) (c : Char) : Option Nat :=
  let d := if '0' ≤ c ∧ c ≤ '9' then c.toNat - 48
    else if 'a' ≤ c ∧ c ≤ 'f' then c.toNat - 87
    else if 'A' ≤ c ∧ c ≤ 'F' then c.toNat - 55
    else radix
  if d < radix then some d else none

/-- A number of at most `maxDigits` digits, below `bound`. -/
def readNumber (radix maxDigits bound : Nat) (allowZeroPrefix : Bool) (s : List Char) :
    Option (Nat × List Char) :=
  let run := s.takeWhile fun c => (toDigit radix c).isSome
  let n := run.foldl (fun n c => n*radix + (toDigit radix c).getD 0) 0
  if run.isEmpty || run.length > maxDigits || n ≥ bound ||
    (!allowZeroPrefix && run.head? = some '0' && run.length > 1) then none
  else some (n, s.drop run.length)

def readSeparator {α : Type} (sep : Char) (index : Nat) (inner : List Char → Option α)
    (s : List Char) : Option α :=
  if index = 0 then inner s
  else match s with
    | [] => none
    | c :: rest => if c = sep then inner rest else none

def readOctets : Nat → Nat → List Char → Option (List Nat × List Char)
  | 0, _, s => some ([], s)
  | left+1, index, s => do
    let (octet, s) ← readSeparator '.' index (readNumber 10 3 256 false) s
    let (octets, s) ← readOctets left (index+1) s
    some (octet :: octets, s)

def readIpv4Addr (s : List Char) : Option (List Nat × List Char) := readOctets 4 0 s

/-- As many groups as there are, and whether they end with an IPv4 address, which takes
the place of two. -/
def readGroups : Nat → Nat → List Char → List Nat × Bool × List Char
  | 0, _, s => ([], false, s)
  | left+1, index, s =>
    match if left = 0 then none else readSeparator ':' index readIpv4Addr s with
    | some (octets, rest) => ([octets.getD 0 0*256 + octets.getD 1 0,
        octets.getD 2 0*256 + octets.getD 3 0], true, rest)
    | none => match readSeparator ':' index (readNumber 16 4 65536 true) s with
      | none => ([], false, s)
      | some (group, rest) =>
        let (groups, ipv4, rest) := readGroups left (index+1) rest
        (group :: groups, ipv4, rest)

def readIpv6Addr (s : List Char) : Option (List Nat × List Char) :=
  match readGroups 8 0 s with
  | (head, ipv4, rest) =>
    if head.length = 8 then some (head, rest)
    else if ipv4 then none
    else match rest with
      | ':' :: ':' :: rest =>
        let (tail, _, rest) := readGroups (7 - head.length) 0 rest
        some (head ++ List.replicate (8 - head.length - tail.length) 0 ++ tail, rest)
      | _ => none

/-- `str::parse::<IpAddr>`. -/
def parseIpAddr (s : List Char) : Option IpAddr :=
  match readIpv4Addr s with
  | some (octets, rest) => if rest = [] then some (.v4 octets) else none
  | none => match readIpv6Addr s with
    | some (segments, rest) => if rest = [] then some (.v6 segments) else none
    | none => none

/-- Loopback, private or link-local. -/
def IpAddr.isLocal : IpAddr → Bool
  | .v4 octets =>
    let a := octets.getD 0 0
    let b := octets.getD 1 0
    a = 127 || a = 10 || (a = 172 && 16 ≤ b && b ≤ 31) || (a = 192 && b = 168) ||
      (a = 169 && b = 254)
  | .v6 segments =>
    let first := segments.getD 0 0
    segments = [0, 0, 0, 0, 0, 0, 0, 1] || first &&& 0xfe00 = 0xfc00 || first &&& 0xffc0 = 0xfe80

/-- `trim_end_matches('.')`. -/
def trimEndDots (s : List Char) : List Char := (s.reverse.dropWhile fun c => c = '.').reverse

def stripBrackets (s : List Char) : List Char :=
  match s with
  | '[' :: rest => if rest.getLast? = some ']' then rest.dropLast else s
  | _ => s

def isLocalNetworkHost (host : String) : Bool :=
  let host := stripBrackets (trimEndDots host.toList)
  let small := (lower (String.ofList host)).toList
  small = "localhost".toList || ".local".toList.isSuffixOf small ||
    (parseIpAddr host).any IpAddr.isLocal

example : ["localhost", "teacher.local.", "172.16.0.1", "169.254.10.20", "[::1]", "fd00::1",
    "fe80::1"].all isLocalNetworkHost = true := by decide

example : ["example.com", "8.8.8.8", "2001:4860:4860::8888", "1.2.3", "::ffff:127.0.0.1"].any
    isLocalNetworkHost = false := by decide

end Cinder.HostClient
