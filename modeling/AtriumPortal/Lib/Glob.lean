import Mathlib.Data.List.Forall2
import Mathlib.Data.List.Infix
/-!
# Glob patterns

A pattern over any alphabet: one character stands for any run, another for any one
character. Beside the language stands the smaller one of matchers that compare
characters before they look for a run.
-/

namespace AtriumPortal.Lib.Glob

section
variable {α : Type} (star any : α)

/-- A text is obtained from a pattern by putting a run for each `star` and one character
for each `any`. -/
inductive Matches : List α → List α → Prop
  | done : Matches [] []
  | same {c : α} {pattern text : List α} (hstar : c ≠ star) (hany : c ≠ any) (rest : Matches pattern text) :
      Matches (c :: pattern) (c :: text)
  | one {c : α} {pattern text : List α} (rest : Matches pattern text) : Matches (any :: pattern) (c :: text)
  | run {pattern text : List α} (taken : List α) (rest : Matches pattern text) :
      Matches (star :: pattern) (taken ++ text)

/-- The same, but a `star` of the pattern where the text has a `star` stands for just that. -/
inductive LiteralFirst : List α → List α → Prop
  | done : LiteralFirst [] []
  | same {c : α} {pattern text : List α} (rest : LiteralFirst pattern text) : LiteralFirst (c :: pattern) (c :: text)
  | one {c : α} {pattern text : List α} (rest : LiteralFirst pattern text) :
      LiteralFirst (any :: pattern) (c :: text)
  | run {pattern text : List α} (taken : List α) (hfirst : (taken ++ text).head? ≠ some star)
      (rest : LiteralFirst pattern text) : LiteralFirst (star :: pattern) (taken ++ text)

/-- Every character of a piece of the pattern stands for the one of the text below it. -/
abbrev Aligned : List α → List α → Prop := List.Forall₂ fun a c => a = any ∨ a = c
end

variable {α : Type} {star any : α} {pattern text piece taken : List α}

theorem LiteralFirst.matches (h : LiteralFirst star any pattern text) : Matches star any pattern text := by
  induction h with
  | done => exact .done
  | @same c pattern text _ ih =>
    by_cases hstar : c = star
    · rw [hstar]
      exact .run [star] ih
    by_cases hany : c = any
    · rw [hany]
      exact .one ih
    · exact .same hstar hany ih
  | one _ ih => exact .one ih
  | run taken _ _ ih => exact .run taken ih

/-- In a text without a `star` the two languages are the same. -/
theorem Matches.literalFirst (h : Matches star any pattern text) (htext : star ∉ text) :
    LiteralFirst star any pattern text := by
  induction h with
  | done => exact .done
  | same _ _ _ ih => exact .same (ih fun h => htext (List.mem_cons_of_mem _ h))
  | one _ ih => exact .one (ih fun h => htext (List.mem_cons_of_mem _ h))
  | run taken _ ih =>
    refine .run taken (fun h => htext (List.mem_of_head? h)) (ih fun h => htext ?_)
    exact List.mem_append_right _ h

/-- Taking the first character off the pattern leaves a suffix of the text to be matched. -/
theorem LiteralFirst.tail {a : α} (h : LiteralFirst star any (a :: pattern) text) :
    ∃ rest, rest <:+ text ∧ LiteralFirst star any pattern rest := by
  cases h with
  | same rest => exact ⟨_, List.suffix_cons .., rest⟩
  | one rest => exact ⟨_, List.suffix_cons .., rest⟩
  | run taken _ rest => exact ⟨_, List.suffix_append .., rest⟩

/-- A run may begin where the text has no `star`. -/
theorem literalFirst_star (hfirst : text.head? ≠ some star) :
    LiteralFirst star any (star :: pattern) text ↔ ∃ rest, rest <:+ text ∧ LiteralFirst star any pattern rest := by
  constructor
  · exact LiteralFirst.tail
  · rintro ⟨rest, ⟨taken, rfl⟩, hrest⟩
    exact .run taken hfirst hrest

theorem literalFirst_cons {a c : α} (hsame : a = any ∨ a = c) (hne : star ≠ any) :
    LiteralFirst star any (a :: pattern) (c :: text) ↔ LiteralFirst star any pattern text := by
  constructor
  · intro h
    generalize htext : c :: text = whole at h
    cases h with
    | same rest =>
      cases htext
      exact rest
    | one rest =>
      cases htext
      exact rest
    | run taken hfirst rest =>
      -- a run cannot begin at a `star` of the text
      rcases hsame with h | h
      · exact absurd h hne
      · exact absurd (by rw [← htext, h]; rfl) hfirst
  · intro h
    rcases hsame with rfl | rfl
    · exact .one h
    · exact .same h

/-- Where a piece of the pattern stands over the text, the rest has to match the rest. -/
theorem literalFirst_aligned (haligned : Aligned any piece taken) (hne : star ≠ any) :
    LiteralFirst star any (piece ++ pattern) (taken ++ text) ↔ LiteralFirst star any pattern text := by
  induction haligned with
  | nil => exact Iff.rfl
  | cons hsame _ ih =>
    rw [List.cons_append, List.cons_append, literalFirst_cons hsame hne, ih]

/-- The piece uses up no less of the text wherever else it is put: what follows it matches
only behind. -/
theorem literalFirst_behind (haligned : Aligned any piece taken) (hne : star ≠ any) {later : List α}
    (hlater : later <:+ taken ++ text) (h : LiteralFirst star any (piece ++ pattern) later) :
    ∃ rest, rest <:+ text ∧ LiteralFirst star any pattern rest := by
  induction haligned generalizing later with
  | nil => exact ⟨later, hlater, h⟩
  | cons hsame _ ih =>
    rw [List.cons_append] at h hlater
    rcases List.suffix_cons_iff.1 hlater with rfl | hlater
    · exact ih (List.suffix_refl _) ((literalFirst_cons hsame hne).1 h)
    · obtain ⟨rest, hrest, hmatch⟩ := h.tail
      exact ih (hrest.trans hlater) hmatch

theorem literalFirst_nil : LiteralFirst star any pattern [] ↔ ∀ a ∈ pattern, a = star := by
  constructor
  · intro h
    generalize htext : ([] : List α) = text at h
    induction h with
    | done => nofun
    | same => cases htext
    | one => cases htext
    | run taken _ _ ih =>
      intro a ha
      rcases List.mem_cons.1 ha with rfl | ha
      · rfl
      · exact ih (List.append_eq_nil_iff.1 htext.symm).2.symm a ha
  · intro h
    induction pattern with
    | nil => exact .done
    | cons a pattern ih =>
      rw [h a (List.mem_cons_self ..)]
      exact .run [] nofun (ih fun b hb => h b (List.mem_cons_of_mem _ hb))

theorem not_literalFirst_of_differs {a c : α} (hany : a ≠ any) (hsame : a ≠ c) (hstar : a ≠ star) :
    ¬ LiteralFirst star any (a :: pattern) (c :: text) := by
  intro h
  generalize htext : c :: text = whole at h
  cases h with
  | same =>
    cases htext
    exact hsame rfl
  | one => exact hany rfl
  | run => exact hstar rfl

theorem not_literalFirst_of_left {c : α} : ¬ LiteralFirst star any [] (c :: text) := nofun

end AtriumPortal.Lib.Glob
