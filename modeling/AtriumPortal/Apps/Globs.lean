import AtriumPortal.Lib.Glob
import Mathlib.Data.List.TakeWhile
/-!
# Matching a file name

`apps/desktop.rs`: `glob_matches`, which goes over the name once and goes back to the last
`*` of the pattern where it cannot go on.
-/
open AtriumPortal.Lib.Glob

namespace AtriumPortal.Apps

/-- The folding of both sides; `to_lowercase` is the standard library's. -/
def fold (toLowercase : String → String) (caseSensitive : Bool) (text : String) : List Char :=
  if caseSensitive then text.toList else (toLowercase text).toList

/-- The loop's variables: what is left of the pattern (from `p`) and of the text (from `t`),
and once a `*` was met what follows it (from `star_p + 1`) and the text from `star_t`. -/
structure Scan where
  pattern : List Char
  text : List Char
  star : Option (List Char × List Char)

namespace Scan

/-- Let the last `*` take one character more, if there is one. -/
def retry (scan : Scan) : Scan ⊕ Bool :=
  match scan.star with
  | some (pattern, text) => .inl ⟨pattern, text.tail, some (pattern, text.tail)⟩
  | none => .inr false

/-- One turn of the loop, or the answer. -/
def step (scan : Scan) : Scan ⊕ Bool :=
  match scan.text, scan.pattern with
  | [], pattern => .inr (pattern.dropWhile (· = '*') = [])
  | _ :: _, [] => scan.retry
  | c :: text, a :: pattern =>
    if a = '?' ∨ a = c then .inl ⟨pattern, text, scan.star⟩
    else if a = '*' then .inl ⟨pattern, c :: text, some (pattern, c :: text)⟩
    else scan.retry

def run : Nat → Scan → Option Bool
  | 0, _ => none
  | turns + 1, scan =>
    match scan.step with
    | .inl next => run turns next
    | .inr answer => some answer

def start (pattern text : List Char) : Scan := ⟨pattern, text, none⟩

/-- The loop ends after at most so many turns. -/
def turns (pattern text : List Char) : Nat := (text.length + 2) * (pattern.length + 1)

end Scan

/-- Enough turns are `Scan.turns`, so the answer is never made up. -/
def globMatches (toLowercase : String → String) (glob name : String) (caseSensitive : Bool) : Bool :=
  let pattern := fold toLowercase caseSensitive glob
  let text := fold toLowercase caseSensitive name
  (Scan.run (Scan.turns pattern text) (Scan.start pattern text)).getD false

/-! ## The loop ends -/

namespace Scan

/-- The text the last `*` can still take, one more before there is one. -/
def reach (scan : Scan) : Nat :=
  match scan.star with
  | some (_, text) => text.length
  | none => scan.text.length + 1

/-- A scan stays within the pattern it was started with, and behind its last `*`. -/
structure Bounded (size : Nat) (scan : Scan) : Prop where
  pattern : scan.pattern.length ≤ size
  star : ∀ pattern text, scan.star = some (pattern, text) →
    pattern.length ≤ size ∧ scan.text.length ≤ text.length

def measure (size : Nat) (scan : Scan) : Nat := scan.reach * (size + 1) + scan.pattern.length

variable {size : Nat} {scan next : Scan}

/-- What one turn does: both go on, a `*` is noted, or the last one takes more. -/
theorem step_cases (h : scan.step = .inl next) :
    (∃ a pattern c text, scan.pattern = a :: pattern ∧ scan.text = c :: text ∧ (a = '?' ∨ a = c) ∧
      next = ⟨pattern, text, scan.star⟩) ∨
    (∃ pattern c text, scan.pattern = '*' :: pattern ∧ scan.text = c :: text ∧ '*' ≠ c ∧
      next = ⟨pattern, scan.text, some (pattern, scan.text)⟩) ∨
    (∃ pattern text, scan.text ≠ [] ∧ ¬ LiteralFirst '*' '?' scan.pattern scan.text ∧ scan.star = some (pattern, text) ∧
      next = ⟨pattern, text.tail, some (pattern, text.tail)⟩) := by
  obtain ⟨pattern, text, star⟩ := scan
  have hretry : ∀ {pattern text}, text ≠ [] → ¬ LiteralFirst '*' '?' pattern text →
      retry ⟨pattern, text, star⟩ = .inl next → ∃ after more, text ≠ [] ∧ ¬ LiteralFirst '*' '?' pattern text ∧
        star = some (after, more) ∧ next = ⟨after, more.tail, some (after, more.tail)⟩ := by
    intro pattern text htext hno h
    cases star with
    | none => cases h
    | some star =>
      cases h
      exact ⟨star.1, star.2, htext, hno, rfl, rfl⟩
  cases text with
  | nil => cases h
  | cons c text =>
    cases pattern with
    | nil => exact Or.inr (Or.inr (hretry (List.cons_ne_nil _ _) not_literalFirst_of_left h))
    | cons a pattern =>
      by_cases hsame : a = '?' ∨ a = c
      · simp only [step, if_pos hsame, Sum.inl.injEq] at h
        exact Or.inl ⟨a, pattern, c, text, rfl, rfl, hsame, h.symm⟩
      · have hdiffers := not_or.1 hsame
        by_cases hstar : a = '*'
        · simp only [step, if_neg hsame, if_pos hstar, Sum.inl.injEq] at h
          subst hstar
          exact Or.inr (Or.inl ⟨pattern, c, text, rfl, rfl, hdiffers.2, h.symm⟩)
        · simp only [step, if_neg hsame, if_neg hstar] at h
          exact Or.inr (Or.inr (hretry (List.cons_ne_nil _ _)
            (not_literalFirst_of_differs hdiffers.1 hdiffers.2 hstar) h))

/-- Each turn goes on in the pattern, or leaves the last `*` less of the text. -/
theorem step_decreases (hbounded : scan.Bounded size) (h : scan.step = .inl next) :
    next.Bounded size ∧ next.measure size < scan.measure size := by
  rcases step_cases h with ⟨a, pattern, c, text, hpattern, htext, -, rfl⟩ | ⟨pattern, c, text, hpattern, htext, -, rfl⟩ |
    ⟨pattern, text, htext, -, hstar, rfl⟩
  · have hsize := hbounded.pattern
    rw [hpattern, List.length_cons] at hsize
    refine ⟨⟨Nat.le_of_succ_le hsize, fun after more hstar => ?_⟩, ?_⟩
    · have hmore := hbounded.star after more hstar
      rw [htext, List.length_cons] at hmore
      exact ⟨hmore.1, Nat.le_of_succ_le hmore.2⟩
    · unfold measure reach
      rw [hpattern, htext]
      cases scan.star with
      | none => simp only [List.length_cons, Nat.add_mul]; omega
      | some star => simp only [List.length_cons]; omega
  · have hsize := hbounded.pattern
    rw [hpattern, List.length_cons] at hsize
    refine ⟨⟨Nat.le_of_succ_le hsize, ?_⟩, ?_⟩
    · rintro after more ⟨⟩
      exact ⟨Nat.le_of_succ_le hsize, le_refl _⟩
    · have hreach : scan.text.length ≤ scan.reach := by
        unfold reach
        cases hstar : scan.star with
        | none => exact Nat.le_succ _
        | some star => exact (hbounded.star star.1 star.2 hstar).2
      have hfull := Nat.mul_le_mul_right (size + 1) hreach
      rw [measure, measure, hpattern, List.length_cons]
      change scan.text.length * (size + 1) + pattern.length < _
      omega
  · obtain ⟨hsize, hlen⟩ := hbounded.star pattern text hstar
    refine ⟨⟨hsize, ?_⟩, ?_⟩
    · rintro after more ⟨⟩
      exact ⟨hsize, le_refl _⟩
    · have hpos : 0 < scan.text.length := List.length_pos_of_ne_nil htext
      obtain ⟨c, text, rfl⟩ := List.exists_cons_of_length_pos (lt_of_lt_of_le hpos hlen)
      simp only [measure, reach, hstar, List.tail_cons, List.length_cons, Nat.add_mul]
      omega

theorem run_of_measure (hbounded : scan.Bounded size) {turns : Nat} (h : scan.measure size < turns) :
    ∃ answer, scan.run turns = some answer := by
  induction turns generalizing scan with
  | zero => exact absurd h (Nat.not_lt_zero _)
  | succ turns ih =>
    cases hstep : scan.step with
    | inr answer => exact ⟨answer, by rw [run, hstep]⟩
    | inl next =>
      obtain ⟨hnext, hless⟩ := step_decreases hbounded hstep
      rw [run, hstep]
      exact ih hnext (by omega)

/-! ## What it answers -/

/-- How the scan stands to what was asked: without a `*` behind it what is left has to
match; else the pattern after the last `*` has to match somewhere from there on, and the
scan has put a piece of it over the text. -/
def Asks (matched : Prop) (scan : Scan) : Prop :=
  match scan.star with
  | none => matched ↔ LiteralFirst '*' '?' scan.pattern scan.text
  | some (pattern, text) =>
    (matched ↔ ∃ rest, rest <:+ text ∧ LiteralFirst '*' '?' pattern rest) ∧
      ∃ piece taken, Aligned '?' piece taken ∧ pattern = piece ++ scan.pattern ∧ text = taken ++ scan.text

variable {matched : Prop}

/-- If what is left matches, so does the whole. -/
theorem Asks.of_matches (h : scan.Asks matched) (hrest : LiteralFirst '*' '?' scan.pattern scan.text) : matched := by
  unfold Asks at h
  split at h
  · exact h.2 hrest
  · obtain ⟨hmatched, piece, taken, haligned, rfl, rfl⟩ := h
    exact hmatched.2 ⟨_, List.suffix_refl _, (literalFirst_aligned haligned (by decide)).2 hrest⟩

/-- If the whole matches, the pattern left matches somewhere in the text left. -/
theorem Asks.behind (h : scan.Asks matched) (hmatched : matched) :
    ∃ rest, rest <:+ scan.text ∧ LiteralFirst '*' '?' scan.pattern rest := by
  unfold Asks at h
  split at h
  · exact ⟨_, List.suffix_refl _, h.1 hmatched⟩
  · obtain ⟨hiff, piece, taken, haligned, rfl, rfl⟩ := h
    obtain ⟨rest, hrest, hmatch⟩ := hiff.1 hmatched
    exact literalFirst_behind haligned (by decide) hrest hmatch

theorem step_asks (h : scan.Asks matched) (hstep : scan.step = .inl next) : next.Asks matched := by
  rcases step_cases hstep with ⟨a, pattern, c, text, hpattern, htext, hsame, rfl⟩ |
    ⟨pattern, c, text, hpattern, htext, hne, rfl⟩ | ⟨pattern, text, htext, hno, hstar, rfl⟩
  · unfold Asks at h ⊢
    rw [hpattern, htext] at h
    dsimp only at h ⊢
    split
    · next hstar =>
      rw [hstar] at h
      exact h.trans (literalFirst_cons hsame (by decide))
    · next after more hstar =>
      rw [hstar] at h
      obtain ⟨hmatched, piece, taken, haligned, rfl, rfl⟩ := h
      refine ⟨hmatched, piece ++ [a], taken ++ [c], ?_, by simp, by simp⟩
      exact List.rel_append haligned (.cons hsame .nil)
  · -- the new `*` can take whatever the last one could have taken more
    have hfirst : scan.text.head? ≠ some '*' := by
      rw [htext]
      exact fun hc => hne (Option.some.inj hc).symm
    refine ⟨?_, [], [], .nil, rfl, rfl⟩
    constructor
    · intro hmatched
      obtain ⟨rest, hrest, hmatch⟩ := h.behind hmatched
      rw [hpattern] at hmatch
      obtain ⟨later, hlater, hmatch⟩ := hmatch.tail
      exact ⟨later, hlater.trans hrest, hmatch⟩
    · intro hlater
      apply h.of_matches
      rw [hpattern]
      exact (literalFirst_star hfirst).2 hlater
  · -- the text at the last `*` does not match, so it can be left out
    unfold Asks at h
    rw [hstar] at h
    obtain ⟨hmatched, piece, taken, haligned, rfl, rfl⟩ := h
    refine ⟨?_, [], [], .nil, rfl, rfl⟩
    rw [hmatched]
    constructor
    · rintro ⟨rest, hrest, hmatch⟩
      obtain ⟨c, more, hmore⟩ := List.exists_cons_of_ne_nil (List.append_ne_nil_of_right_ne_nil taken htext)
      rw [hmore] at hrest ⊢
      rcases List.suffix_cons_iff.1 hrest with rfl | hrest
      · rw [← hmore] at hmatch
        exact absurd ((literalFirst_aligned haligned (by decide)).1 hmatch) hno
      · exact ⟨rest, hrest, hmatch⟩
    · rintro ⟨rest, hrest, hmatch⟩
      exact ⟨rest, hrest.trans (List.tail_suffix _), hmatch⟩

theorem step_answers (h : scan.Asks matched) {answer : Bool} (hstep : scan.step = .inr answer) :
    answer = true ↔ matched := by
  obtain ⟨pattern, text, star⟩ := scan
  cases text with
  | nil =>
    cases hstep
    rw [decide_eq_true_eq, List.dropWhile_eq_nil_iff]
    simp only [decide_eq_true_eq]
    rw [← @literalFirst_nil Char '*' '?' pattern]
    constructor
    · exact fun hrest => h.of_matches hrest
    · intro hmatched
      obtain ⟨rest, hrest, hmatch⟩ := h.behind hmatched
      rwa [List.suffix_nil.1 hrest] at hmatch
  | cons c text =>
    have hfailed : ¬ LiteralFirst '*' '?' pattern (c :: text) → retry ⟨pattern, c :: text, star⟩ = .inr answer →
        (answer = true ↔ matched) := by
      intro hno hretry
      cases star with
      | some star => cases hretry
      | none =>
        cases hretry
        exact ⟨nofun, fun hmatched => absurd (h.1 hmatched) hno⟩
    cases pattern with
    | nil => exact hfailed not_literalFirst_of_left hstep
    | cons a pattern =>
      by_cases hsame : a = '?' ∨ a = c
      · simp [step, if_pos hsame] at hstep
      · have hdiffers := not_or.1 hsame
        by_cases hstar : a = '*'
        · simp [step, if_neg hsame, if_pos hstar] at hstep
        · simp only [step, if_neg hsame, if_neg hstar] at hstep
          exact hfailed (not_literalFirst_of_differs hdiffers.1 hdiffers.2 hstar) hstep

theorem Asks.run (h : scan.Asks matched) {turns : Nat} {answer : Bool} (hrun : Scan.run turns scan = some answer) :
    answer = true ↔ matched := by
  induction turns generalizing scan with
  | zero => cases hrun
  | succ turns ih =>
    rw [run] at hrun
    cases hstep : scan.step with
    | inr answered =>
      rw [hstep] at hrun
      cases hrun
      exact step_answers h hstep
    | inl next =>
      rw [hstep] at hrun
      exact ih (step_asks h hstep) hrun

/-- The loop ends, and answers whether the text matches, `*` literally where it can. -/
theorem run_start (pattern text : List Char) {turns : Nat} (h : Scan.turns pattern text ≤ turns) :
    ∃ answer, run turns (start pattern text) = some answer ∧ (answer = true ↔ LiteralFirst '*' '?' pattern text) := by
  have hbounded : (start pattern text).Bounded pattern.length := ⟨le_refl _, nofun⟩
  have hmeasure : (start pattern text).measure pattern.length < turns := by
    refine lt_of_lt_of_le ?_ h
    simp only [measure, reach, start, Scan.turns, Nat.add_mul]
    omega
  obtain ⟨answer, hrun⟩ := run_of_measure hbounded hmeasure
  exact ⟨answer, hrun, (show (start pattern text).Asks _ from Iff.rfl).run hrun⟩

end Scan

/-! ## Which names are accepted -/

/-- The glob language, with both sides folded. -/
def InLanguage (toLowercase : String → String) (glob name : String) (caseSensitive : Bool) : Prop :=
  Matches '*' '?' (fold toLowercase caseSensitive glob) (fold toLowercase caseSensitive name)

/-- The name is obtained by putting for a `*` where the name goes on with `*` just that. -/
def InLiteralLanguage (toLowercase : String → String) (glob name : String) (caseSensitive : Bool) : Prop :=
  LiteralFirst '*' '?' (fold toLowercase caseSensitive glob) (fold toLowercase caseSensitive name)

variable (toLowercase : String → String) (glob name : String) (caseSensitive : Bool)

/-- The loop returns, and what it returns is right. -/
def MatchesRight : Prop :=
  ∃ turns, ∀ more, turns ≤ more →
    ∃ answer, Scan.run more (Scan.start (fold toLowercase caseSensitive glob) (fold toLowercase caseSensitive name)) =
      some answer ∧ (answer = true ↔ InLanguage toLowercase glob name caseSensitive)

theorem globMatches_literal :
    globMatches toLowercase glob name caseSensitive = true ↔ InLiteralLanguage toLowercase glob name caseSensitive := by
  obtain ⟨answer, hrun, hanswer⟩ :=
    Scan.run_start (fold toLowercase caseSensitive glob) (fold toLowercase caseSensitive name) (le_refl _)
  rw [globMatches, hrun, Option.getD_some, hanswer, InLiteralLanguage]

variable {toLowercase glob name caseSensitive} in
theorem MatchesRight.literal (h : MatchesRight toLowercase glob name caseSensitive)
    (hin : InLanguage toLowercase glob name caseSensitive) : InLiteralLanguage toLowercase glob name caseSensitive := by
  obtain ⟨turns, hreturns⟩ := h
  obtain ⟨answer, hrun, hanswer⟩ := hreturns _ (Nat.le_max_left turns
    (Scan.turns (fold toLowercase caseSensitive glob) (fold toLowercase caseSensitive name)))
  obtain ⟨found, hfound, hliteral⟩ := Scan.run_start _ _ (Nat.le_max_right turns
    (Scan.turns (fold toLowercase caseSensitive glob) (fold toLowercase caseSensitive name)))
  rw [hrun] at hfound
  cases hfound
  exact hliteral.1 (hanswer.2 hin)

/-- `glob_matches` returns on every input, and it is right exactly if the name can be
obtained so that a `*` stands for a `*` of the name wherever the name has one there. -/
theorem globMatches_iff :
    MatchesRight toLowercase glob name caseSensitive ↔
      (InLanguage toLowercase glob name caseSensitive → InLiteralLanguage toLowercase glob name caseSensitive) := by
  constructor
  · exact fun h => h.literal
  · intro hliteral
    refine ⟨Scan.turns (fold toLowercase caseSensitive glob) (fold toLowercase caseSensitive name), ?_⟩
    intro more hmore
    obtain ⟨answer, hrun, hanswer⟩ := Scan.run_start _ _ hmore
    exact ⟨answer, hrun, hanswer.trans ⟨LiteralFirst.matches, hliteral⟩⟩

/-- A name without `*` is matched right. -/
theorem globMatches_plain (h : '*' ∉ fold toLowercase caseSensitive name) :
    globMatches toLowercase glob name caseSensitive = true ↔ InLanguage toLowercase glob name caseSensitive := by
  rw [globMatches_literal]
  exact ⟨LiteralFirst.matches, fun hin => hin.literalFirst h⟩

/-- The pattern that matches every name does not match this one. -/
theorem star_refused :
    InLanguage String.toLower "*" "*ab" true ∧ globMatches String.toLower "*" "*ab" true = false ∧
      ¬ MatchesRight String.toLower "*" "*ab" true := by
  have hin : InLanguage String.toLower "*" "*ab" true := Matches.run "*ab".toList .done
  have hrefused : globMatches String.toLower "*" "*ab" true = false := by rfl
  refine ⟨hin, hrefused, fun h => ?_⟩
  have haccepted := (globMatches_literal String.toLower "*" "*ab" true).2 (h.literal hin)
  rw [hrefused] at haccepted
  cases haccepted

end AtriumPortal.Apps
