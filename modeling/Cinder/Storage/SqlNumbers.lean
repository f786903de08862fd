import Mathlib.Algebra.Order.Ring.Nat
import Mathlib.Data.Int.Order.Basic
import Mathlib.Data.List.Basic
set_option autoImplicit false

/-!
Statement text and parameter list. A statement whose number of parameters is
not its number of placeholders is refused before it reaches a table, and a row
with NULL in a NOT NULL column is refused when it does.
-/

namespace Cinder.Storage

inductive SqlError where
  | invalidParameterCount (given expected : Nat)
  | constraintViolation
  | queryReturnedNoRows
  | integerOverflow
  | invalidColumnType
  deriving DecidableEq, Repr

/-- One value of a `VALUES` list: the placeholder `?n`, or a literal. -/
inductive SqlExpr (V : Type) where
  | param (n : Nat)
  | lit (v : V)
  deriving DecidableEq, Repr

variable {C V : Type}

def SqlExpr.index : SqlExpr V → Nat
  | .param n => n
  | .lit _ => 0

/-- Parameters are numbered from 1. -/
def SqlExpr.value (null : V) (params : List V) : SqlExpr V → V
  | .param n => params.getD (n-1) null
  | .lit v => v

/-- The named columns of an `INSERT`, each with its value expression. -/
structure InsertStatement (C V : Type) where
  columns : List (C × SqlExpr V)
  notNull : C → Bool

namespace InsertStatement

/-- The largest placeholder, as SQLite counts them. -/
def parameterCount (st : InsertStatement C V) : Nat :=
  (st.columns.map fun c => c.2.index).foldr max 0

def assignment (st : InsertStatement C V) (null : V) (params : List V) : List (C × V) :=
  st.columns.map fun c => (c.1, c.2.value null params)

/-- Binds the parameters and gives the value of each named column. -/
def bind [DecidableEq V] (st : InsertStatement C V) (null : V) (params : List V) :
    Except SqlError (List (C × V)) :=
  if params.length ≠ st.parameterCount then
    .error (.invalidParameterCount params.length st.parameterCount)
  else if (st.assignment null params).any fun c => st.notNull c.1 && c.2 = null then
    .error .constraintViolation
  else .ok (st.assignment null params)

variable [DecidableEq V]

theorem bind_count_error {st : InsertStatement C V} {null : V} {params : List V}
    (h : params.length ≠ st.parameterCount) :
    st.bind null params =
      .error (.invalidParameterCount params.length st.parameterCount) := by
  simp [bind, h]

theorem bind_ok {st : InsertStatement C V} {null : V} {params : List V}
    (h : params.length = st.parameterCount)
    (hnull : ∀ c ∈ st.assignment null params, st.notNull c.1 = true → c.2 ≠ null) :
    st.bind null params = .ok (st.assignment null params) := by
  have hany : (st.assignment null params).any
      (fun c => st.notNull c.1 && c.2 = null) = false := by
    rw [List.any_eq_false]
    intro c hc
    have := hnull c hc
    cases hn : st.notNull c.1 <;> simp_all
  unfold bind
  rw [if_neg (not_not.mpr h), hany]
  rfl

def valueOf [DecidableEq C] (null : V) (a : List (C × V)) (c : C) : V :=
  ((a.find? fun x => x.1 = c).map Prod.snd).getD null

end InsertStatement

end Cinder.Storage

/-!
Numbers as SQLite computes with them: signed integers of 64 bits, which numbers fit and what is
left of one that does not; integers that become reals when a sum does not fit, and `sum()`, which
refuses to do that.
-/

namespace Cinder.Storage

def FitsI64 (n : Int) : Prop := -9223372036854775808 ≤ n ∧ n ≤ 9223372036854775807

instance (n : Int) : Decidable (FitsI64 n) := inferInstanceAs (Decidable (_ ∧ _))

abbrev I64 := {n : Int // FitsI64 n}

def wrapI64 (n : Int) : Int := (n + 9223372036854775808) % 18446744073709551616 - 9223372036854775808

theorem fitsI64_wrapI64 (n : Int) : FitsI64 (wrapI64 n) := by
  unfold FitsI64 wrapI64
  omega

theorem wrapI64_of_fits {n : Int} (h : FitsI64 n) : wrapI64 n = n := by
  unfold FitsI64 at h
  unfold wrapI64
  omega

theorem wrapI64_add_lt {a b : Int} (ha : FitsI64 a) (hb : FitsI64 b) (hlarge : ¬FitsI64 (a + b))
    (hpos : 0 ≤ b) : wrapI64 (a + b) < a := by
  unfold FitsI64 at ha hb hlarge
  unfold wrapI64
  omega

/-- What a real holds is not looked at. -/
inductive SqlNumber where
  | integer (n : Int)
  | real
  deriving DecidableEq, Repr

namespace SqlNumber

def isReal : SqlNumber → Bool
  | .integer _ => false
  | .real => true

def add : SqlNumber → SqlNumber → SqlNumber
  | .integer a, .integer b => if FitsI64 (a + b) then .integer (a + b) else .real
  | _, _ => .real

/-- `sum()` behind the rows that came to `total`. An overflow among integers is an error,
unless a real comes later. -/
def sumFrom (total : Int) : List SqlNumber → Except SqlError SqlNumber
  | [] => .ok (.integer total)
  | .real :: _ => .ok .real
  | .integer n :: rest =>
    if FitsI64 (total + n) then sumFrom (total + n) rest
    else if rest.any isReal then .ok .real else .error .integerOverflow

/-- `get::<_, i64>`. -/
def readI64 : SqlNumber → Except SqlError Int
  | .integer n => .ok n
  | .real => .error .invalidColumnType

/-- `SELECT COALESCE(sum(a + b), 0)` over counts, read as an integer. -/
def sumOfSums (rows : List (Nat × Nat)) : Except SqlError Int :=
  (sumFrom 0 (rows.map fun row => (integer row.1).add (.integer row.2))).bind readI64

theorem sumFrom_fits {total : Nat} {rows : List (Nat × Nat)}
    (h : total + (rows.map fun row => row.1 + row.2).sum ≤ 9223372036854775807) :
    sumFrom total (rows.map fun row => (integer row.1).add (.integer row.2)) =
      .ok (.integer (total + (rows.map fun row => row.1 + row.2).sum : Nat)) := by
  induction rows generalizing total with
  | nil => rfl
  | cons row rows ih =>
    rw [List.map_cons, List.sum_cons] at h
    have hrow : (integer row.1).add (.integer row.2) = .integer (row.1 + row.2 : Nat) :=
      if_pos (by unfold FitsI64; omega)
    have htotal : FitsI64 ((total : Int) + (row.1 + row.2 : Nat)) := by
      unfold FitsI64
      omega
    rw [List.map_cons, hrow, sumFrom, if_pos htotal, List.map_cons, List.sum_cons, ← Nat.add_assoc,
      ← Int.natCast_add]
    exact ih (by omega)

theorem sumFrom_overflow {total : Nat} {rows : List (Nat × Nat)}
    (htotal : total ≤ 9223372036854775807)
    (h : 9223372036854775807 < total + (rows.map fun row => row.1 + row.2).sum) :
    ∃ e, (sumFrom total (rows.map fun row => (integer row.1).add (.integer row.2))).bind
      readI64 = .error e := by
  induction rows generalizing total with
  | nil =>
    simp only [List.map_nil, List.sum_nil] at h
    omega
  | cons row rows ih =>
    rw [List.map_cons, List.sum_cons] at h
    by_cases hrow : FitsI64 ((row.1 : Int) + row.2)
    swap
    · exact ⟨.invalidColumnType, by rw [List.map_cons, add, if_neg hrow]; rfl⟩
    rw [List.map_cons, add, if_pos hrow, sumFrom]
    split
    · next hfits =>
      unfold FitsI64 at hfits
      rw [← Int.natCast_add, ← Int.natCast_add]
      exact ih (by omega) (by omega)
    · split
      · exact ⟨.invalidColumnType, rfl⟩
      · exact ⟨.integerOverflow, rfl⟩

theorem sumOfSums_fits {rows : List (Nat × Nat)}
    (h : (rows.map fun row => row.1 + row.2).sum ≤ 9223372036854775807) :
    sumOfSums rows = .ok ((rows.map fun row => row.1 + row.2).sum : Nat) := by
  have htotal : 0 + (rows.map fun row => row.1 + row.2).sum ≤ 9223372036854775807 := by omega
  have hsum := sumFrom_fits htotal
  rw [Nat.zero_add, Int.natCast_zero] at hsum
  rw [sumOfSums, hsum]
  rfl

theorem sumOfSums_overflow {rows : List (Nat × Nat)}
    (h : 9223372036854775807 < (rows.map fun row => row.1 + row.2).sum) :
    ∃ e, sumOfSums rows = .error e :=
  sumFrom_overflow (Nat.zero_le _) (by rwa [Nat.zero_add])

end SqlNumber

end Cinder.Storage
