import Mathlib.Data.Rat.Defs
import Cinder.Storage.SqlNumbers
import Cinder.Streams.WordRuns
set_option autoImplicit false

/-!
The values the Host's handlers pass around: identifiers, times, texts, JSON and
errors. Points are rationals, since every number the handlers accept is finite.
-/

namespace Cinder.Host
open Cinder.Storage

abbrev Uuid := Nat

abbrev Bytes := List UInt8

/-- UTC, in nanoseconds. -/
abbrev Time := Int

def minutes (n : Int) : Int := n*60000000000

def days (n : Int) : Int := n*86400000000000

inductive Role where
  | student | teacher
  deriving DecidableEq, Repr

def Role.isTeacher : Role → Bool
  | .teacher => true
  | .student => false

inductive HostError where
  | badCredentials
  | unauthenticated
  | forbidden
  | notFound (what : String)
  | badRequest (message : String)
  | rateLimited
  | conflict
  | aiUnavailable
  | database (error : SqlError)
  | other (message : String)
  deriving DecidableEq, Repr

/-- A statement that a constraint refuses. -/
def stored {α : Type} : Option α → Except HostError α
  | some a => .ok a
  | none => .error (.database .constraintViolation)

theorem stored_eq_ok {α : Type} {o : Option α} {a : α} : stored o = .ok a ↔ o = some a := by
  cases o with
  | none => exact ⟨(by cases ·), (by cases ·)⟩
  | some b => simp [stored]

theorem stored_eq_error {α : Type} {o : Option α} {e : HostError} (h : stored o = .error e) :
    e = .database .constraintViolation := by
  cases o with
  | none => exact (Except.error.inj h).symm
  | some a => cases h

def referenced (found : Bool) : Except HostError Unit :=
  if found then .ok () else .error (.database .constraintViolation)

theorem referenced_ok {found : Bool} {u : Unit} (h : referenced found = .ok u) : found = true := by
  unfold referenced at h
  split at h
  · assumption
  · cases h

/-- Three variants, as in the parsed source text: integers from 0, negative
integers, and everything with a fraction or an exponent. -/
inductive JsonNumber where
  | posInt (n : Nat)
  | negInt (n : Int)
  | float (q : ℚ)
  deriving DecidableEq, Repr

mutual

/-- A JSON value. The fields of an object are kept sorted by key, so two equal
values are the same term. -/
inductive Json where
  | null
  | bool (b : Bool)
  | num (n : JsonNumber)
  | str (s : String)
  | arr (xs : JsonArray)
  | obj (fields : JsonFields)
  deriving DecidableEq, Repr

inductive JsonArray where
  | nil
  | cons (x : Json) (xs : JsonArray)
  deriving DecidableEq, Repr

inductive JsonFields where
  | nil
  | cons (key : String) (x : Json) (fields : JsonFields)
  deriving DecidableEq, Repr

end

namespace Json

def asStr : Json → Option String
  | .str s => some s
  | _ => none

def isBoolean : Json → Bool
  | .bool _ => true
  | _ => false

def isArray : Json → Bool
  | .arr _ => true
  | _ => false

end Json

def JsonFields.get (key : String) : JsonFields → Option Json
  | .nil => none
  | .cons k x fields => if k = key then some x else fields.get key

/-- The White_Space property of Unicode, by which texts are trimmed. -/
def isWhitespace (c : Char) : Bool :=
  let n := c.toNat
  (9 ≤ n && n ≤ 13) || n = 32 || n = 0x85 || n = 0xA0 || n = 0x1680 ||
    (0x2000 ≤ n && n ≤ 0x200A) || n = 0x2028 || n = 0x2029 || n = 0x202F ||
    n = 0x205F || n = 0x3000

def trim (s : String) : String :=
  String.ofList (((s.toList.dropWhile isWhitespace).reverse.dropWhile isWhitespace).reverse)

/-- SQLite's `lower`: it changes ASCII letters only. -/
def lower (s : String) : String :=
  String.ofList (s.toList.map fun c =>
    if 'A' ≤ c ∧ c ≤ 'Z' then Char.ofNat (c.toNat+32) else c)

/-- `to_ascii_uppercase`. -/
def upper (s : String) : String :=
  String.ofList (s.toList.map fun x =>
    if 'a' ≤ x ∧ x ≤ 'z' then Char.ofNat (x.toNat-32) else x)

def charCount (s : String) : Nat := s.toList.length

section Trimmed
open Cinder.Streams
variable (s : String)

theorem toList_trim : (trim s).toList = strip isWhitespace s.toList := String.toList_ofList

@[simp] theorem trim_trim : trim (trim s) = trim s := by
  rw [← String.toList_inj, toList_trim, toList_trim, strip_strip]

theorem charCount_trim_le : charCount (trim s) ≤ charCount s := by
  rw [charCount, toList_trim]
  exact (strip_sublist _ _).length_le

@[simp] theorem charCount_append (t : String) : charCount (s ++ t) = charCount s + charCount t := by
  simp [charCount]

theorem trim_ne_empty {s : String} {c : Char} (hc : c ∈ s.toList) (h : isWhitespace c = false) :
    trim s ≠ "" := by
  intro htrim
  rw [← String.toList_inj, toList_trim, String.toList_empty, strip_eq_nil_iff] at htrim
  rw [htrim c hc] at h
  cases h

end Trimmed

def showFraction : Nat → ℚ → String
  | 0, _ => ""
  | fuel+1, q => if q = 0 then "" else
    toString (q*10).floor ++ showFraction fuel (q*10-(q*10).floor)

def showPoints (q : ℚ) : String :=
  if q.den = 1 then toString q.num
  else toString q.floor ++ "." ++ showFraction 17 (q-q.floor)

end Cinder.Host
