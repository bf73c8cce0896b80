import Mathlib.Data.Option.Basic
/-!
# Checks in a row

A validator as a sequence of checks in `Except`: it accepts iff each of them does.
-/

namespace AtriumPortal.Lib.Checks

variable {ε α β : Type} {x : Except ε α} {f : α → Except ε β} {b : β}

theorem bind_eq_ok : (x >>= f) = .ok b ↔ ∃ a, x = .ok a ∧ f a = .ok b := by
  cases x with
  | error e => exact ⟨nofun, nofun⟩
  | ok a =>
    constructor
    · exact fun h => ⟨a, rfl, h⟩
    · rintro ⟨_, ha, h⟩
      cases ha
      exact h

/-- Two checks. -/
theorem andThen_eq_ok {check : Except ε Unit} {rest : Except ε β} :
    (check >>= fun _ => rest) = .ok b ↔ check = .ok () ∧ rest = .ok b := by
  rw [bind_eq_ok]
  exact ⟨fun ⟨_, h⟩ => h, fun h => ⟨(), h⟩⟩

/-- A test that refuses. -/
theorem refuse_eq_ok {p : Prop} [Decidable p] {e : ε} :
    (if p then .error e else .ok () : Except ε Unit) = .ok () ↔ ¬ p := by
  split <;> simp [*]

theorem refuseThen_eq_ok {p : Prop} [Decidable p] {e : ε} {rest : Except ε β} :
    (if p then .error e else rest) = .ok b ↔ ¬ p ∧ rest = .ok b := by
  split <;> simp [*]

/-- A check of a value that may be missing. -/
def checkSome (check : α → Except ε Unit) : Option α → Except ε Unit
  | some a => check a
  | none => .ok ()

theorem checkSome_eq_ok {check : α → Except ε Unit} {o : Option α} :
    checkSome check o = .ok () ↔ ∀ a, o = some a → check a = .ok () := by
  cases o <;> simp [checkSome]

/-- A check of each value of a list. -/
def checkAll (check : α → Except ε Unit) : List α → Except ε Unit
  | [] => .ok ()
  | a :: l => do
    check a
    checkAll check l

theorem checkAll_eq_ok {check : α → Except ε Unit} {l : List α} :
    checkAll check l = .ok () ↔ ∀ a ∈ l, check a = .ok () := by
  induction l with
  | nil => simp [checkAll]
  | cons a l ih => simp [checkAll, andThen_eq_ok, ih]

/-- A check of each value of a list, whose keys must differ; `before` and `after`
stand around the test of the key, and `seen` has the keys of the values before. -/
def checkDistinct {κ : Type} [DecidableEq κ] (key : α → κ) (before : α → Except ε Unit) (duplicate : α → ε)
    (after : α → Except ε Unit) : List κ → List α → Except ε Unit
  | _, [] => .ok ()
  | seen, a :: rest => do
    before a
    if key a ∈ seen then .error (duplicate a)
    else
      after a
      checkDistinct key before duplicate after (key a :: seen) rest

theorem checkDistinct_eq_ok {κ : Type} [DecidableEq κ] {key : α → κ} {before : α → Except ε Unit} {duplicate : α → ε}
    {after : α → Except ε Unit} {seen : List κ} {l : List α} : checkDistinct key before duplicate after seen l = .ok () ↔
      (∀ a ∈ l, before a = .ok () ∧ after a = .ok ()) ∧ (l.map key).Nodup ∧ ∀ a ∈ l, key a ∉ seen := by
  induction l generalizing seen with
  | nil => simp [checkDistinct]
  | cons a l ih =>
    simp only [checkDistinct, andThen_eq_ok, refuseThen_eq_ok, ih, List.map_cons, List.nodup_cons,
      List.mem_map, List.mem_cons, not_or, not_exists, not_and]
    grind

end AtriumPortal.Lib.Checks
