import Mathlib.Data.List.Basic
/-!
# Pieces

A list cut after every separator, as `split_inclusive` cuts a text into its lines, and
the induction along the pieces.
-/

namespace AtriumPortal.Lib.Lines

variable {α : Type} [DecidableEq α] {sep : α}

/-- The pieces of a list, each with the separator that ends it. -/
def splitAfter (sep : α) : List α → List (List α)
  | [] => []
  | a :: l =>
    if a = sep then [a] :: splitAfter sep l
    else match splitAfter sep l with
      | [] => [[a]]
      | piece :: pieces => (a :: piece) :: pieces

@[simp] theorem splitAfter_nil : splitAfter sep [] = [] := rfl

theorem splitAfter_sep (l : List α) : splitAfter sep (sep :: l) = [sep] :: splitAfter sep l := if_pos rfl

theorem splitAfter_break {a : List α} (h : sep ∉ a) (rest : List α) :
    splitAfter sep (a ++ sep :: rest) = (a ++ [sep]) :: splitAfter sep rest := by
  induction a with
  | nil => exact splitAfter_sep rest
  | cons b a ih =>
    have hb : b ≠ sep := fun hb => h (hb ▸ List.mem_cons_self)
    rw [List.cons_append, splitAfter, if_neg hb, ih fun hin => h (List.mem_cons_of_mem _ hin)]
    rfl

/-- A list without the separator is one piece. -/
theorem splitAfter_last {a : List α} (h : sep ∉ a) (hne : a ≠ []) : splitAfter sep a = [a] := by
  induction a with
  | nil => exact absurd rfl hne
  | cons b a ih =>
    have hb : b ≠ sep := fun hb => h (hb ▸ List.mem_cons_self)
    rw [splitAfter, if_neg hb]
    by_cases hnil : a = []
    · subst hnil
      rfl
    · rw [ih (fun hin => h (List.mem_cons_of_mem _ hin)) hnil]

/-- What holds of the empty list and of a last piece, and of a list whenever it holds of what
follows its first piece, holds of every list. -/
@[elab_as_elim]
theorem pieces_induction {motive : List α → Prop} (nil : motive []) (last : ∀ a, sep ∉ a → a ≠ [] → motive a)
    (piece : ∀ a rest, sep ∉ a → motive rest → motive (a ++ sep :: rest)) (l : List α) : motive l := by
  by_cases hin : sep ∈ l
  · obtain ⟨a, rest, rfl, ha⟩ := List.eq_append_cons_of_mem hin
    exact piece a rest ha (pieces_induction nil last piece rest)
  · by_cases hnil : l = []
    · exact hnil ▸ nil
    · exact last l hin hnil
termination_by l.length
decreasing_by
  subst_vars
  simp only [List.length_append, List.length_cons]
  omega

end AtriumPortal.Lib.Lines
