import Cinder.Pins.PinnedClients
import Mathlib.Data.Fintype.Pi
set_option autoImplicit false

/-!
Whether the certificate of a first contact is kept. It is taken from the verifier
after the response, and put in the file with a copy of all pins that was read
before.
-/

namespace Cinder.Pins

variable {Origin Cert Pin : Type}

/-- The file that takes the place of the pin file is the one now there, but for
the origin. -/
def TempFile.Is (t : TempFile Origin Pin) (pins : PinMap Origin Pin) : Prop :=
  match t with
  | .absent => True
  | .torn => False
  | .whole pins' => pins' = pins

theorem renameTemp_of_is {w : World Origin Pin Cert} {pins : PinMap Origin Pin}
    (h : w.temp.Is pins) :
    w.renameTemp = none ∨
      w.renameTemp = some { w with file := pins, placed := w.files, temp := .absent } := by
  unfold World.renameTemp
  cases htemp : w.temp with
  | absent => exact .inl rfl
  | torn => rw [htemp] at h; exact h.elim
  | whole pins' =>
    rw [htemp] at h
    obtain rfl : pins' = pins := h
    exact .inr rfl

variable [DecidableEq Origin]

/-- The certificate that is trusted for an origin: the one of the first contact
that returned, until the origin is forgotten. -/
def trusted : List (Event Origin Cert) → Origin → Option Cert
  | [], _ => none
  | .returned _ o cert true :: earlier, o' =>
    if o = o' then (trusted earlier o').or (some cert) else trusted earlier o'
  | .forgot o :: earlier, o' => if o = o' then none else trusted earlier o'
  | _ :: earlier, o' => trusted earlier o'

/-- The certificate that was trusted when the `send` began, if the origin has not
been forgotten since. -/
def due : List (Event Origin Cert) → Nat → Origin → Option Cert
  | [], _, _ => none
  | .called i o :: earlier, i', o' =>
    if i = i' ∧ o = o' then trusted earlier o' else due earlier i' o'
  | .forgot o :: earlier, i', o' => if o = o' then none else due earlier i' o'
  | .returned _ _ _ _ :: earlier, i', o' => due earlier i' o'

section History
variable {h : List (Event Origin Cert)} {i j : Nat} {o o' : Origin} {cert : Cert}

@[simp] theorem trusted_called : trusted (.called i o :: h) o' = trusted h o' := rfl

@[simp] theorem due_returned {c : Cert} {first : Bool} :
    due (.returned i o c first :: h) j o' = due h j o' := rfl

theorem trusted_of_forgot (hc : trusted (.forgot o :: h) o' = some cert) :
    trusted h o' = some cert := by
  rw [trusted] at hc
  split at hc
  · cases hc
  · exact hc

theorem due_of_forgot (hc : due (.forgot o :: h) j o' = some cert) : due h j o' = some cert := by
  rw [due] at hc
  split at hc
  · cases hc
  · exact hc

theorem due_called_of_ne (hj : j ≠ i) : due (.called i o :: h) j o' = due h j o' :=
  if_neg fun hij => hj hij.1.symm

theorem trusted_returned {c : Cert} {first : Bool} :
    trusted (.returned i o c first :: h) o' =
      if first = true ∧ o = o' then (trusted h o').or (some c) else trusted h o' := by
  cases first with
  | false => rfl
  | true =>
    by_cases ho : o = o'
    · rw [trusted, if_pos ho, if_pos ⟨rfl, ho⟩]
    · rw [trusted, if_neg ho, if_neg fun hand => ho hand.2]

theorem trusted_of_due (hdue : due h i o = some cert) : trusted h o = some cert := by
  induction h with
  | nil => cases hdue
  | cons e h ih =>
    cases e with
    | called j o' =>
      rw [due] at hdue
      split at hdue
      · exact hdue
      · exact ih hdue
    | forgot o' =>
      rw [due] at hdue
      rw [trusted]
      split at hdue
      · cases hdue
      · next hne => rw [if_neg hne]; exact ih hdue
    | returned j o' c first =>
      rw [trusted_returned, ih hdue, Option.some_or, ite_self]

end History

section Disturbance
variable [DecidableEq Pin] (digest : Cert → Pin)

/-- Nothing comes between a first contact or a `forget` and its pin, and none writes a file
that has taken the place of the pins. -/
def Proc.Undisturbed (w : World Origin Pin Cert) : Proc Origin Pin Cert → Choice Cert → Prop
  | .send _ (.opened _ _ _ handle), .proceed => handle ≠ w.placed
  | .send _ (.opened _ _ _ handle), .overlaps => handle ≠ w.placed
  | .send _ (.opened _ _ _ handle), .failsLater => handle ≠ w.placed
  | .forget _ (.opened _ handle), .proceed => handle ≠ w.placed
  | .forget _ (.opened _ handle), .overlaps => handle ≠ w.placed
  | .forget _ (.opened _ handle), .failsLater => handle ≠ w.placed
  | .send o (.written cert seen), .proceed =>
    w.temp.Is (Function.update w.file o (some seen)) ∧ seen = digest cert ∧
      (w.file o = none ∨ w.file o = some seen)
  | .send o (.stored _ seen), .proceed => w.file o = some seen
  | .send o (.stored _ seen), .failsLater => w.file o = some seen
  | .forget o .written, .proceed => w.temp.Is (Function.update w.file o none)
  | _, _ => True

def Move.Undisturbed (w : World Origin Pin Cert) : Move Origin Cert → Prop
  | .step i choice => ∀ p ∈ w.procs i, p.Undisturbed digest w choice
  | _ => True

def Undisturbed : World Origin Pin Cert → List (Move Origin Cert) → Prop
  | _, [] => True
  | w, m :: moves => m.Undisturbed digest w ∧ Undisturbed (w.move digest m) moves

section Decide
variable [Fintype Origin]

instance (t : TempFile Origin Pin) (pins : PinMap Origin Pin) : Decidable (t.Is pins) :=
  match t with
  | .absent => .isTrue trivial
  | .torn => .isFalse id
  | .whole pins' => inferInstanceAs (Decidable (pins' = pins))

instance (w : World Origin Pin Cert) (p : Proc Origin Pin Cert) (choice : Choice Cert) :
    Decidable (p.Undisturbed digest w choice) := by
  unfold Proc.Undisturbed
  split <;> infer_instance

instance (w : World Origin Pin Cert) (m : Move Origin Cert) :
    Decidable (m.Undisturbed digest w) :=
  match m with
  | .send _ _ => .isTrue trivial
  | .forget _ _ => .isTrue trivial
  | .restart => .isTrue trivial
  | .step i choice => inferInstanceAs (Decidable (∀ p ∈ w.procs i, p.Undisturbed digest w choice))

def decUndisturbed (w : World Origin Pin Cert) :
    (moves : List (Move Origin Cert)) → Decidable (Undisturbed digest w moves)
  | [] => .isTrue trivial
  | m :: moves =>
    have := decUndisturbed (w.move digest m) moves
    inferInstanceAs (Decidable (m.Undisturbed digest w ∧ Undisturbed digest (w.move digest m) moves))

instance (w : World Origin Pin Cert) (moves : List (Move Origin Cert)) :
    Decidable (Undisturbed digest w moves) := decUndisturbed digest w moves

end Decide

end Disturbance

end Cinder.Pins
