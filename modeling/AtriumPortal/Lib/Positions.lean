import AtriumPortal.Lib.Entries
import Mathlib.Algebra.GroupWithZero.Nat
import Mathlib.Data.List.Nodup
import Mathlib.Data.List.Perm.Basic
/-!
# Lists by position

The positions of a list whose entries pass a test, when one entry is put in another's place;
and the removal of an entry by the last one, which takes its place.
-/
open AtriumPortal.Lib.Entries

namespace AtriumPortal.Lib.Positions

variable {α : Type*} {p : α → Bool} {l : List α} {k : Nat} {a b : α}

/-- The positions of the entries that pass a test, in order. -/
def positions (p : α → Bool) (l : List α) : List Nat := (List.range l.length).filter fun k => l[k]?.any p

theorem mem_positions : k ∈ positions p l ↔ ∃ a, l[k]? = some a ∧ p a = true := by
  rw [positions, List.mem_filter, List.mem_range, Option.any_eq_true]
  constructor
  · exact fun h => h.2
  · rintro ⟨a, ha, hp⟩
    exact ⟨(List.getElem?_eq_some_iff.1 ha).1, a, ha, hp⟩

theorem nodup_positions (p : α → Bool) (l : List α) : (positions p l).Nodup := List.nodup_range.filter _

/-- An entry that does not pass the test adds no position. -/
theorem positions_append (hb : p b = false) : (positions p (l ++ [b])).Perm (positions p l) := by
  refine (List.perm_ext_iff_of_nodup (nodup_positions _ _) (nodup_positions _ _)).2 fun k => ?_
  simp only [mem_positions, append_eq_some]
  constructor
  · rintro ⟨a, ha | ⟨-, rfl⟩, hp⟩
    · exact ⟨a, ha, hp⟩
    · rw [hb] at hp
      cases hp
  · rintro ⟨a, ha, hp⟩
    exact ⟨a, .inl ha, hp⟩

/-- An entry in the place of one that passes the test alike. -/
theorem positions_set_same (ha : l[k]? = some a) (hp : p a = p b) : (positions p (l.set k b)).Perm (positions p l) := by
  refine (List.perm_ext_iff_of_nodup (nodup_positions _ _) (nodup_positions _ _)).2 fun j => ?_
  rw [mem_positions, mem_positions]
  exact exists_set (P := (p · = true)) ha (by rw [hp])

/-- An entry that passes the test in the place of one that does not. -/
theorem positions_set_add (ha : l[k]? = some a) (hpa : p a = false) (hpb : p b = true) :
    (positions p (l.set k b)).Perm (k :: positions p l) := by
  have hnot : k ∉ positions p l := by
    rw [mem_positions]
    rintro ⟨c, hc, h⟩
    rw [← Option.some.inj (ha.symm.trans hc), hpa] at h
    cases h
  refine (List.perm_ext_iff_of_nodup (nodup_positions _ _) ((nodup_positions _ _).cons hnot)).2 fun j => ?_
  simp only [List.mem_cons, mem_positions, set_eq_some ha]
  constructor
  · rintro ⟨c, ⟨hj, -⟩ | ⟨-, hc⟩, h⟩
    · exact .inl hj
    · exact .inr ⟨c, hc, h⟩
  · rintro (rfl | ⟨c, hc, h⟩)
    · exact ⟨b, .inl ⟨rfl, rfl⟩, hpb⟩
    · refine ⟨c, .inr ⟨?_, hc⟩, h⟩
      rintro rfl
      exact hnot (mem_positions.2 ⟨c, hc, h⟩)

/-- An entry that does not pass the test in the place of one that does. -/
theorem positions_set_drop (ha : l[k]? = some a) (hpa : p a = true) (hpb : p b = false) :
    (positions p l).Perm (k :: positions p (l.set k b)) := by
  obtain ⟨hk, hget⟩ := List.getElem?_eq_some_iff.1 ha
  have hb : (l.set k b)[k]? = some b := List.getElem?_set_self hk
  have hback := positions_set_add (b := a) hb hpb hpa
  have hself : l.set k a = l := by rw [← hget, List.set_getElem_self]
  rwa [List.set_set, hself] at hback

/-- A sum over the entries, when one is put in another's place. -/
theorem sum_map_set (f : α → Nat) (ha : l[k]? = some a) : ((l.set k b).map f).sum + f a = (l.map f).sum + f b := by
  induction l generalizing k with
  | nil => cases ha
  | cons c l ih =>
    cases k with
    | zero =>
      cases ha
      simp only [List.set_cons_zero, List.map_cons, List.sum_cons]
      omega
    | succ k =>
      have := ih ha
      simp only [List.set_cons_succ, List.map_cons, List.sum_cons]
      omega

/-- How many entries pass a test, when one is put in another's place. -/
theorem countP_set (p : α → Bool) (ha : l[k]? = some a) :
    (l.set k b).countP p + (p a).toNat = l.countP p + (p b).toNat := by
  induction l generalizing k with
  | nil => cases ha
  | cons c l ih =>
    cases k with
    | zero =>
      cases ha
      simp only [List.set_cons_zero, List.countP_cons]
      cases p a <;> cases p b <;> simp
    | succ k =>
      have := ih ha
      simp only [List.set_cons_succ, List.countP_cons]
      omega

/-! ## Removal -/

/-- `Vec::swap_remove`: the last entry takes the place of the one that is removed. -/
def swapRemove (l : List α) (k : Nat) : List α :=
  match l.getLast? with
  | some last => (l.set k last).dropLast
  | none => []

theorem swapRemove_perm (h : l[k]? = some a) : l.Perm (a :: swapRemove l k) := by
  obtain ⟨hk, hget⟩ := List.getElem?_eq_some_iff.1 h
  rcases List.eq_nil_or_concat l with rfl | ⟨init, last, rfl⟩
  · cases h
  · rw [List.concat_eq_append] at h hk ⊢
    rw [List.length_append, List.length_singleton] at hk
    rw [swapRemove, List.getLast?_concat]
    dsimp only
    rcases Nat.lt_or_eq_of_le (Nat.le_of_lt_succ hk) with hlt | rfl
    · rw [List.set_append_left _ _ hlt, List.dropLast_concat]
      rw [List.getElem?_append_left hlt] at h
      obtain ⟨-, rfl⟩ := List.getElem?_eq_some_iff.1 h
      refine (List.perm_append_singleton last init).trans ?_
      refine ((List.getElem_cons_eraseIdx_perm hlt).symm.cons last).trans ((List.Perm.swap _ _ _).trans ?_)
      exact (List.set_perm_cons_eraseIdx hlt last).symm.cons _
    · rw [List.getElem?_concat_length] at h
      cases h
      rw [List.set_append_right _ _ (Nat.le_refl _), Nat.sub_self, List.set_cons_zero, List.dropLast_concat]
      exact List.perm_append_singleton a init

end AtriumPortal.Lib.Positions
