import Mathlib.Data.List.Basic
/-!
# Ledgers of owned resources

A party is given named resources and hands them back; while it owns one it may
use it. A ledger is the list of these entries, newest first. `balance` is how
often a resource was given and not taken back, `Sound` says that everything
taken or used was owned at that moment. The theorems read a sound ledger as
statements about the order of its entries: between two `take`s of a resource
there is a `give`, and after a `take` nothing uses it before the next `give`.
-/

namespace AtriumPortal.Lib.Ledger

/-- `reset` voids what is owned: the resources themselves are gone. -/
inductive Entry (K : Type*) where
  | give (k : K)
  | take (k : K)
  | use (k : K)
  | reset
  deriving DecidableEq, Repr

variable {K : Type*} [DecidableEq K]

/-- How often `k` is owned after the ledger. -/
def balance : List (Entry K) → K → Nat
  | [], _ => 0
  | .give j :: log, k => if j = k then balance log k + 1 else balance log k
  | .take j :: log, k => if j = k then balance log k - 1 else balance log k
  | .use _ :: log, k => balance log k
  | .reset :: _, _ => 0

/-- Whatever is taken or used is owned at that moment. -/
def Sound : List (Entry K) → Prop
  | [] => True
  | .take k :: log => 0 < balance log k ∧ Sound log
  | .use k :: log => 0 < balance log k ∧ Sound log
  | .give _ :: log => Sound log
  | .reset :: log => Sound log

/-- A resource is given only when it is not owned. -/
def Exclusive : List (Entry K) → Prop
  | [] => True
  | .give k :: log => balance log k = 0 ∧ Exclusive log
  | .take _ :: log => Exclusive log
  | .use _ :: log => Exclusive log
  | .reset :: log => Exclusive log

@[simp] theorem balance_nil (k : K) : balance [] k = 0 := rfl
@[simp] theorem balance_use (j k : K) (log : List (Entry K)) : balance (.use j :: log) k = balance log k := rfl
@[simp] theorem balance_reset (k : K) (log : List (Entry K)) : balance (.reset :: log) k = 0 := rfl

theorem balance_give (j k : K) (log : List (Entry K)) :
    balance (.give j :: log) k = if j = k then balance log k + 1 else balance log k := rfl

theorem balance_take (j k : K) (log : List (Entry K)) :
    balance (.take j :: log) k = if j = k then balance log k - 1 else balance log k := rfl

@[simp] theorem balance_give_self (k : K) (log : List (Entry K)) :
    balance (.give k :: log) k = balance log k + 1 := by
  simp [balance_give]

@[simp] theorem balance_take_self (k : K) (log : List (Entry K)) :
    balance (.take k :: log) k = balance log k - 1 := by
  simp [balance_take]

/-- With exclusive gives a resource is owned at most once. -/
theorem balance_le_one {log : List (Entry K)} (h : Exclusive log) (k : K) : balance log k ≤ 1 := by
  induction log with
  | nil => simp
  | cons e log ih =>
    cases e with
    | give j =>
      by_cases hj : j = k
      · subst hj; simp [h.1]
      · simpa [balance_give, hj] using ih h.2
    | take j =>
      have := ih h
      by_cases hj : j = k <;> simp [balance_take, hj]
      · omega
      · exact this
    | use j => exact ih h
    | reset => simp

theorem Sound.of_append (post : List (Entry K)) {log : List (Entry K)} (h : Sound (post ++ log)) : Sound log := by
  induction post with
  | nil => exact h
  | cons e post ih =>
    cases e with
    | give j => exact ih h
    | take j => exact ih h.2
    | use j => exact ih h.2
    | reset => exact ih h

theorem Exclusive.of_append (post : List (Entry K)) {log : List (Entry K)} (h : Exclusive (post ++ log)) : Exclusive log := by
  induction post with
  | nil => exact h
  | cons e post ih =>
    cases e with
    | give j => exact ih h.2
    | take j => exact ih h
    | use j => exact ih h
    | reset => exact ih h

/-- Without a `give`, what is not owned stays not owned. -/
theorem balance_zero_of_no_give {mid log : List (Entry K)} {k : K} (h0 : balance log k = 0)
    (hg : Entry.give k ∉ mid) : balance (mid ++ log) k = 0 := by
  induction mid with
  | nil => exact h0
  | cons e mid ih =>
    have hmid := ih fun h => hg (List.mem_cons_of_mem _ h)
    cases e with
    | give j =>
      have hj : j ≠ k := by rintro rfl; exact hg List.mem_cons_self
      simpa [balance_give, hj] using hmid
    | take j => by_cases hj : j = k <;> simp [balance_take, hj, hmid]
    | use j => exact hmid
    | reset => simp

/-- After a `take`, the resource is owned again only through a `give`. -/
theorem give_of_owned_after_take {mid pre : List (Entry K)} {k : K}
    (he : Exclusive (mid ++ .take k :: pre)) (h : 0 < balance (mid ++ .take k :: pre) k) :
    Entry.give k ∈ mid := by
  by_contra hg
  have hpre : Exclusive pre := he.of_append mid
  have hle := balance_le_one hpre k
  have h0 : balance (.take k :: pre) k = 0 := by simp; omega
  have := balance_zero_of_no_give h0 hg
  omega

/-- Between two `take`s of a resource lies a `give` of it. -/
theorem give_between_takes {post mid pre : List (Entry K)} {k : K}
    (hs : Sound (post ++ .take k :: (mid ++ .take k :: pre)))
    (he : Exclusive (post ++ .take k :: (mid ++ .take k :: pre))) : Entry.give k ∈ mid :=
  give_of_owned_after_take (he.of_append post) (hs.of_append post).1

/-- Between a `take` of a resource and a later `use` lies a `give` of it. -/
theorem give_before_use {post mid pre : List (Entry K)} {k : K}
    (hs : Sound (post ++ .use k :: (mid ++ .take k :: pre)))
    (he : Exclusive (post ++ .use k :: (mid ++ .take k :: pre))) : Entry.give k ∈ mid :=
  give_of_owned_after_take (he.of_append post) (hs.of_append post).1

/-- What is taken was owned when it was taken. -/
theorem owned_of_take {post pre : List (Entry K)} {k : K} (hs : Sound (post ++ .take k :: pre)) :
    0 < balance pre k :=
  (hs.of_append post).1

end AtriumPortal.Lib.Ledger
