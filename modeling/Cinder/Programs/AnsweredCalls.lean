import Mathlib.Data.List.Count
import Mathlib.Data.List.Induction
set_option autoImplicit false

/-!
A component that answers one call after the other, and what is known of a whole history of
calls from what is known of the next call.
-/

namespace Cinder.Programs

variable {S T C A B : Type}

def stateAfter (step : S → C → A × S) (s : S) (cs : List C) : S :=
  cs.foldl (fun s c => (step s c).2) s

def answers (step : S → C → A × S) : S → List C → List A
  | _, [] => []
  | s, c :: cs => (step s c).1 :: answers step (step s c).2 cs

section Histories
variable (step : S → C → A × S) (s : S) (cs : List C) (c : C)

@[simp] theorem stateAfter_nil : stateAfter step s [] = s := rfl

@[simp] theorem answers_nil : answers step s [] = [] := rfl

@[simp] theorem stateAfter_concat :
    stateAfter step s (cs ++ [c]) = (step (stateAfter step s cs) c).2 := by
  simp [stateAfter]

@[simp] theorem answers_concat :
    answers step s (cs ++ [c]) = answers step s cs ++ [(step (stateAfter step s cs) c).1] := by
  induction cs generalizing s with
  | nil => rfl
  | cons d cs ih => exact congrArg _ (ih (step s d).2)

@[simp] theorem length_answers : (answers step s cs).length = cs.length := by
  induction cs generalizing s with
  | nil => rfl
  | cons d cs ih => exact congrArg _ (ih (step s d).2)

end Histories

/-- Two components of which one follows the other, as long as the history is admitted. -/
theorem answers_eq_of_follows {step : S → C → A × S} {step' : T → C → B × T} {view : B → A}
    {admitted : List C → Prop} {follows : List C → S → T → Prop} {s : S} {t : T}
    (hfront : ∀ cs c, admitted (cs ++ [c]) → admitted cs) (hstart : follows [] s t)
    (hstep : ∀ cs c s' t', admitted (cs ++ [c]) → follows cs s' t' → t' = stateAfter step' t cs →
      (step s' c).1 = view (step' t' c).1 ∧ follows (cs ++ [c]) (step s' c).2 (step' t' c).2)
    {cs : List C} (h : admitted cs) :
    answers step s cs = (answers step' t cs).map view ∧
      follows cs (stateAfter step s cs) (stateAfter step' t cs) := by
  induction cs using List.reverseRecOn with
  | nil => exact ⟨rfl, hstart⟩
  | append_singleton cs c ih =>
    obtain ⟨hanswers, hfollows⟩ := ih (hfront cs c h)
    obtain ⟨hanswer, hnext⟩ := hstep cs c _ _ h hfollows rfl
    rw [stateAfter_concat, stateAfter_concat, answers_concat, answers_concat, hanswers, hanswer,
      List.map_append]
    exact ⟨rfl, hnext⟩

def answersTo (step : S → C → A × S) (s : S) (p : C → Bool) (cs : List C) : List A :=
  ((cs.zip (answers step s cs)).filter fun q => p q.1).map (·.2)

@[simp] theorem answersTo_concat (step : S → C → A × S) (s : S) (p : C → Bool) (cs : List C)
    (c : C) :
    answersTo step s p (cs ++ [c]) = answersTo step s p cs ++
      if p c then [(step (stateAfter step s cs) c).1] else [] := by
  have hlength : cs.length = (answers step s cs).length := (length_answers step s cs).symm
  simp only [answersTo, answers_concat, List.zip_append hlength, List.filter_append,
    List.map_append, List.zip_cons_cons, List.zip_nil_right, List.filter_cons, List.filter_nil]
  cases p c <;> rfl

theorem answersTo_sublist (step : S → C → A × S) (s : S) (p : C → Bool) (cs : List C) :
    (answersTo step s p cs).Sublist (answers step s cs) := by
  have hsnd : (cs.zip (answers step s cs)).map (·.2) = answers step s cs :=
    List.map_snd_zip (Nat.le_of_eq (length_answers step s cs))
  rw [← hsnd]
  exact List.filter_sublist.map _

theorem answersTo_of_map {step : S → C → A × S} {step' : T → C → B × T} {view : B → A} {s : S}
    {t : T} {cs : List C} (h : answers step s cs = (answers step' t cs).map view)
    (p : C → Bool) : answersTo step s p cs = (answersTo step' t p cs).map view := by
  unfold answersTo
  rw [h, List.zip_map_right, List.filter_map, List.map_map, List.map_map]
  rfl

/-- The calls of others, which leave a caller's part of the state alone, are not seen. -/
theorem answersTo_eq_alone {step : S → C → A × S} {p : C → Bool} (part : S → T) {s : S}
    (hown : ∀ c s s', p c = true → part s = part s' →
      (step s c).1 = (step s' c).1 ∧ part (step s c).2 = part (step s' c).2)
    (hother : ∀ c s, p c = false → part (step s c).2 = part s) (cs : List C) :
    answersTo step s p cs = answers step s (cs.filter p) ∧
      part (stateAfter step s cs) = part (stateAfter step s (cs.filter p)) := by
  induction cs using List.reverseRecOn with
  | nil => exact ⟨rfl, rfl⟩
  | append_singleton cs c ih =>
    obtain ⟨hanswers, hpart⟩ := ih
    cases hp : p c with
    | true =>
      obtain ⟨hanswer, hnext⟩ := hown c _ _ hp hpart
      simp [hp, hanswers, hanswer, hnext, List.filter_append]
    | false => simp [hp, hanswers, hpart, hother c _ hp, List.filter_append]

end Cinder.Programs
