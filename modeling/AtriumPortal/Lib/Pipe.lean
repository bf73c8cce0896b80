import Mathlib.Data.List.TakeDrop
/-!
# Pipes

What was written to a pipe is what was taken from it and what is unread, in that order, and only
so much is unread as it has room for. A reader that keeps the end of what it takes has the end of
all of it.
-/

namespace AtriumPortal.Lib

structure Pipe (α : Type) (capacity : Nat) where
  taken : List α
  unread : List α
  within : unread.length ≤ capacity

namespace Pipe

variable {α : Type} {capacity : Nat}

def empty : Pipe α capacity := ⟨[], [], Nat.zero_le _⟩

def written (p : Pipe α capacity) : List α := p.taken ++ p.unread

/-- Write all of `items`, where there is room. -/
def put (p : Pipe α capacity) (items : List α) : Option (Pipe α capacity) :=
  if h : p.unread.length + items.length ≤ capacity then
    some ⟨p.taken, p.unread ++ items, by rwa [List.length_append]⟩
  else none

/-- Read `n` items, or what there is. -/
def take (p : Pipe α capacity) (n : Nat) : Pipe α capacity :=
  ⟨p.taken ++ p.unread.take n, p.unread.drop n, Nat.le_trans (List.drop_sublist n p.unread).length_le p.within⟩

variable {p p' : Pipe α capacity} {items : List α}

@[simp] theorem take_taken (n : Nat) : (p.take n).taken = p.taken ++ p.unread.take n := rfl

@[simp] theorem take_unread (n : Nat) : (p.take n).unread = p.unread.drop n := rfl

@[simp] theorem take_written (n : Nat) : (p.take n).written = p.written := by
  rw [written, take_taken, take_unread, List.append_assoc, List.take_append_drop, written]

theorem put_some (h : p.put items = some p') : p'.taken = p.taken ∧ p'.unread = p.unread ++ items := by
  unfold put at h
  split at h
  · cases h
    exact ⟨rfl, rfl⟩
  · cases h

theorem put_written (h : p.put items = some p') : p'.written = p.written ++ items := by
  obtain ⟨htaken, hunread⟩ := put_some h
  rw [written, htaken, hunread, written, List.append_assoc]

/-- Nothing at all can be written to a pipe exactly when it is full. -/
theorem put_one_none {a : α} : p.put [a] = none ↔ p.unread.length = capacity := by
  have hwithin := p.within
  unfold put
  split
  · next h =>
    rw [List.length_singleton] at h
    exact ⟨nofun, fun hfull => by omega⟩
  · next h =>
    rw [List.length_singleton] at h
    exact ⟨fun _ => by omega, fun _ => rfl⟩

end Pipe

variable {α : Type}

/-- The last `n` items. -/
def keepLast (n : Nat) (items : List α) : List α := items.drop (items.length - n)

/-- Keeping the end of the end of what came before and of what comes is keeping the end of both. -/
theorem keepLast_append (n : Nat) (before items : List α) :
    keepLast n (keepLast n before ++ items) = keepLast n (before ++ items) := by
  unfold keepLast
  have hdrop : before.drop (before.length - n) ++ items = (before ++ items).drop (before.length - n) :=
    (List.drop_append_of_le_length (Nat.sub_le _ _)).symm
  rw [hdrop, List.drop_drop, List.length_drop, List.length_append]
  congr 1
  omega

end AtriumPortal.Lib
