import Mathlib.Data.List.Basic
/-!
# Bounded shelves

Items are kept in order of arrival, each on a shelf, and a shelf holds a bounded
number of items: putting one on a full shelf removes the shelf's oldest. This is
what a keyed store with a first-in first-out cap is for; a store that keeps one
list per key refines it through `onShelf`.
-/

namespace AtriumPortal.Lib.Shelves

variable {A K : Type*} [DecidableEq K] (shelf : A → K) (cap : K → Nat)

/-- The items on shelf `k`, oldest first. -/
def onShelf (items : List A) (k : K) : List A := items.filter (shelf · = k)

/-- Put `a` on its shelf; a shelf above its cap loses its oldest item. -/
def put (items : List A) (a : A) : List A :=
  if cap (shelf a) ≤ (onShelf shelf items (shelf a)).length then
    (items ++ [a]).eraseP (shelf · = shelf a)
  else items ++ [a]

/-- No shelf is above its cap. -/
def Fits (items : List A) : Prop := ∀ k, (onShelf shelf items k).length ≤ cap k

/-- Drop the oldest items above `cap`. -/
def drainOldest {B : Type*} (cap : Nat) (items : List B) : List B :=
  if cap < items.length then items.drop (items.length - cap) else items

variable {shelf cap}

@[simp] theorem onShelf_nil (k : K) : onShelf shelf [] k = [] := rfl

theorem mem_onShelf {items : List A} {k : K} {a : A} : a ∈ onShelf shelf items k ↔ a ∈ items ∧ shelf a = k := by
  simp [onShelf]

theorem onShelf_append (items items' : List A) (k : K) :
    onShelf shelf (items ++ items') k = onShelf shelf items k ++ onShelf shelf items' k := by
  simp [onShelf]

@[simp] theorem onShelf_singleton_self (a : A) : onShelf shelf [a] (shelf a) = [a] := by
  simp [onShelf]

theorem onShelf_singleton_other {a : A} {k : K} (h : shelf a ≠ k) : onShelf shelf [a] k = [] := by
  simp [onShelf, h]

/-- Removing the first item of a shelf takes the head of that shelf alone. -/
theorem onShelf_eraseP (items : List A) (j k : K) :
    onShelf shelf (items.eraseP (shelf · = j)) k =
      if j = k then (onShelf shelf items k).tail else onShelf shelf items k := by
  induction items with
  | nil => simp
  | cons a items ih =>
    by_cases ha : shelf a = j
    · subst ha
      by_cases hk : shelf a = k <;> simp [onShelf, hk]
    · rw [List.eraseP_cons_of_neg (by simpa using ha)]
      unfold onShelf at ih ⊢
      by_cases hk : shelf a = k
      · have hjk : j ≠ k := by rintro rfl; exact ha hk
        simp only [List.filter_cons, hk, decide_true, if_true, hjk, if_false] at ih ⊢
        rw [ih]
      · simpa only [List.filter_cons, hk, decide_false, if_neg Bool.false_ne_true] using ih

theorem onShelf_filter (items : List A) (p : A → Bool) (k : K) :
    onShelf shelf (items.filter p) k = (onShelf shelf items k).filter p := by
  unfold onShelf
  rw [List.filter_filter, List.filter_filter]
  exact List.filter_congr fun a _ => Bool.and_comm _ _

/-- Putting an item changes no other shelf. -/
theorem onShelf_put_other {items : List A} {a : A} {k : K} (h : shelf a ≠ k) :
    onShelf shelf (put shelf cap items a) k = onShelf shelf items k := by
  unfold put
  split
  · simp [onShelf_eraseP, h, onShelf_append, onShelf_singleton_other h]
  · simp [onShelf_append, onShelf_singleton_other h]

/-- On its own shelf it arrives last, and at most the oldest leaves. -/
theorem onShelf_put_self {items : List A} (h : Fits shelf cap items) (a : A) :
    onShelf shelf (put shelf cap items a) (shelf a) =
      drainOldest (cap (shelf a)) (onShelf shelf items (shelf a) ++ [a]) := by
  have hle := h (shelf a)
  unfold put drainOldest
  split
  · next hfull =>
    have hlen : (onShelf shelf items (shelf a) ++ [a]).length - cap (shelf a) = 1 := by simp; omega
    rw [if_pos (by simp; omega), hlen, onShelf_eraseP, if_pos rfl, onShelf_append, onShelf_singleton_self,
      List.drop_one]
  · next hfull =>
    rw [if_neg (by simp; omega), onShelf_append, onShelf_singleton_self]

theorem length_drainOldest_le {B : Type*} (cap : Nat) (items : List B) : (drainOldest cap items).length ≤ cap := by
  unfold drainOldest
  split
  · simp; omega
  · omega

theorem Fits.nil : Fits shelf cap [] := fun k => Nat.zero_le (cap k)

theorem Fits.put {items : List A} (h : Fits shelf cap items) (a : A) : Fits shelf cap (put shelf cap items a) := by
  intro k
  by_cases hk : shelf a = k
  · subst hk
    rw [onShelf_put_self h]
    exact length_drainOldest_le _ _
  · rw [onShelf_put_other hk]
    exact h k

theorem Fits.filter {items : List A} (h : Fits shelf cap items) (p : A → Bool) : Fits shelf cap (items.filter p) := by
  intro k
  rw [onShelf_filter]
  exact Nat.le_trans (List.length_filter_le _ _) (h k)

/-- Nothing is reordered, and only the new item arrives. -/
theorem put_sublist (items : List A) (a : A) : (put shelf cap items a).Sublist (items ++ [a]) := by
  unfold put
  split
  · exact List.eraseP_sublist
  · exact List.Sublist.refl _

/-- `a` is the oldest item of a shelf that has no room left. -/
def Overflows (shelf : A → K) (cap : K → Nat) (items : List A) (k : K) (a : A) : Prop :=
  cap k ≤ (onShelf shelf items k).length ∧ (onShelf shelf items k).head? = some a

/-- Among distinct items, a put removes exactly the oldest of a full shelf. -/
theorem mem_put {items : List A} {a x : A} (hd : items.Nodup) (hcap : 0 < cap (shelf a)) :
    x ∈ put shelf cap items a ↔ (x ∈ items ∧ ¬ Overflows shelf cap items (shelf a) x) ∨ x = a := by
  unfold put
  split
  · next hfull =>
    obtain ⟨y, hy⟩ := List.exists_mem_of_length_pos (Nat.lt_of_lt_of_le hcap hfull)
    obtain ⟨hy, hshelf⟩ := mem_onShelf.1 hy
    -- The items before the oldest one of the shelf are on other shelves.
    obtain ⟨b, pre, post, hpre, hb, rfl, he⟩ := List.exists_of_eraseP (p := (shelf · = shelf a)) hy (by simpa using hshelf)
    have hhead : (onShelf shelf (pre ++ b :: post) (shelf a)).head? = some b := by
      have hnone : onShelf shelf pre (shelf a) = [] := List.filter_eq_nil_iff.2 hpre
      have hb : shelf b = shelf a := by simpa using hb
      rw [onShelf_append, hnone]
      simp [onShelf, hb]
    have hover : Overflows shelf cap (pre ++ b :: post) (shelf a) x ↔ x = b := by
      simp only [Overflows, hhead, Option.some.injEq, eq_comm (a := b)]
      exact and_iff_right hfull
    rw [List.eraseP_append_left (by simpa using hshelf) _ hy, he, hover]
    have hx : x = b → x ∉ pre ++ post := by
      rintro rfl
      exact (List.nodup_cons.1 ((List.perm_middle).nodup_iff.1 hd)).1
    simp only [List.mem_append, List.mem_cons, List.not_mem_nil, or_false] at hx ⊢
    tauto
  · next hroom =>
    have hover : ¬ Overflows shelf cap items (shelf a) x := fun h => hroom h.1
    simp [hover]

end AtriumPortal.Lib.Shelves
