import Mathlib.Data.List.Infix

/-!
# List lemmas

Facts about lists of anything that the standard library does not have.
-/

namespace JassOutline

variable {α : Type*}

/-- Each element of a list with the elements in front of it. -/
theorem zip_inits_cons (a : α) (rest : List α) :
    (a :: rest).inits.zip (a :: rest) =
      ([], a) :: (rest.inits.zip rest).map (Prod.map (a :: ·) id) := by
  rw [List.inits_cons, List.zip_cons_cons, ← List.zip_map_left]

/-- What stands in front of an element does not matter to what comes last. -/
theorem getLastD_append_cons (front : List α) (a : α) (rest : List α) (default : α) :
    (front ++ a :: rest).getLastD default = rest.getLastD a := by
  induction front generalizing default with
  | nil => rw [List.nil_append, List.getLastD_cons]
  | cons next front ih => rw [List.cons_append, List.getLastD_cons, ih]

/-- The element behind the front is the one that is modified. -/
theorem modify_length_append (front : List α) (a : α) (rest : List α) (f : α → α) :
    (front ++ a :: rest).modify front.length f = front ++ f a :: rest := by
  induction front with
  | nil => rfl
  | cons next front ih => simp [ih]

/-- The first element that satisfies a test, where those in front of it fail it. -/
theorem findIdx_append_cons {p : α → Bool} {front : List α} {a : α}
    (hfront : ∀ x ∈ front, p x = false) (ha : p a = true) (rest : List α) :
    (front ++ a :: rest).findIdx p = front.length := by
  rw [List.findIdx_append, List.findIdx_eq_length_of_false hfront, if_neg (Nat.lt_irrefl _),
    List.findIdx_cons, ha, cond_true, Nat.zero_add]

/-- An element of two lists one behind the other stands in the first one or in the second one. -/
theorem cases_append {a b front behind : List α} {x : α} (h : a ++ b = front ++ x :: behind) :
    (∃ later, a = front ++ x :: later) ∨
      ∃ before, front = a ++ before ∧ b = before ++ x :: behind := by
  obtain ⟨before, hfront, hb⟩ | ⟨later, ha, hx⟩ := List.append_eq_append_iff.1 h
  · exact .inr ⟨before, hfront, hb⟩
  · cases later with
    | nil => exact .inr ⟨[], by simpa using ha.symm, by simpa using hx.symm⟩
    | cons y later =>
      obtain ⟨rfl, -⟩ := List.cons.inj hx
      exact .inl ⟨later, ha⟩

end JassOutline
