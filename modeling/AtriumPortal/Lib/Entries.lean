import Mathlib.Data.List.Basic
/-!
# Entries of a list by position

A list whose entries keep their positions: what a new entry at the end, a
replaced entry or a changed entry does to the entry at a position.
-/

namespace AtriumPortal.Lib.Entries

variable {α : Type*} {l : List α}

theorem set_eq_some {k j : Nat} {a b q : α} (hk : l[k]? = some a) :
    (l.set k b)[j]? = some q ↔ (j = k ∧ q = b) ∨ (j ≠ k ∧ l[j]? = some q) := by
  have hlt := (List.getElem?_eq_some_iff.1 hk).1
  by_cases hjk : j = k
  · subst hjk
    simp [hlt, eq_comm]
  · simp [Ne.symm hjk, hjk]

/-- A replaced entry that is as good as the old one. -/
theorem exists_set {k j : Nat} {a b : α} {P : α → Prop} (hk : l[k]? = some a) (hP : P b ↔ P a) :
    (∃ q, (l.set k b)[j]? = some q ∧ P q) ↔ ∃ q, l[j]? = some q ∧ P q := by
  simp only [set_eq_some hk]
  constructor
  · rintro ⟨q, ⟨rfl, rfl⟩ | ⟨-, hj⟩, hq⟩
    · exact ⟨a, hk, hP.1 hq⟩
    · exact ⟨q, hj, hq⟩
  · rintro ⟨q, hj, hq⟩
    by_cases hjk : j = k
    · subst hjk
      cases hk.symm.trans hj
      exact ⟨b, .inl ⟨rfl, rfl⟩, hP.2 hq⟩
    · exact ⟨q, .inr ⟨hjk, hj⟩, hq⟩

theorem append_eq_some {j : Nat} {x q : α} :
    (l ++ [x])[j]? = some q ↔ l[j]? = some q ∨ (j = l.length ∧ q = x) := by
  rcases Nat.lt_trichotomy j l.length with hlt | rfl | hgt
  · simp [List.getElem?_append_left hlt, Nat.ne_of_lt hlt]
  · simp [eq_comm]
  · have h₁ : (l ++ [x])[j]? = none := List.getElem?_eq_none (by simp; omega)
    have h₂ : l[j]? = none := List.getElem?_eq_none (by omega)
    simp [h₁, h₂, Nat.ne_of_gt hgt]

theorem mem_modify {f : α → α} {k : Nat} {x : α} (h : x ∈ l.modify k f) :
    x ∈ l ∨ ∃ y ∈ l, x = f y := by
  obtain ⟨j, hj⟩ := List.mem_iff_getElem?.1 h
  rw [List.getElem?_modify] at hj
  split at hj
  · obtain ⟨y, hy, rfl⟩ := Option.map_eq_some_iff.1 hj
    exact .inr ⟨y, List.mem_of_getElem? hy, rfl⟩
  · have hx : l[j]? = some x := by simpa using hj
    exact .inl (List.mem_of_getElem? hx)

end AtriumPortal.Lib.Entries
