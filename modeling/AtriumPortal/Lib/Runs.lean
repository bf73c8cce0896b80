import Mathlib.Algebra.GroupWithZero.Nat
import Mathlib.Data.Option.Basic
/-!
# Runs of a labelled transition system

A system is a set of initial states and a partial step function on labelled
steps. `Reach` is what any run gets to, `exec` runs a concrete list of labels.
A claim about every run is `Reach.inv`: the invariant holds initially and each
step keeps it. `Guarded` restricts a system to the steps that meet a condition,
so "in every run whose steps all meet the condition" is `Reach` of the guarded
system.
-/

namespace AtriumPortal.Lib.Runs

variable {S L : Type*}

/-- The states a run from an initial state gets to. -/
inductive Reach (init : S → Prop) (step : S → L → Option S) : S → Prop
  | init {s} : init s → Reach init step s
  | step {s l s'} : Reach init step s → step s l = some s' → Reach init step s'

/-- The steps of a system that meet `guard`. -/
def Guarded (guard : S → L → Prop) [∀ s l, Decidable (guard s l)] (step : S → L → Option S) :
    S → L → Option S :=
  fun s l => if guard s l then step s l else none

/-- Run a list of labels; `none` when one of them is not enabled. -/
def exec (step : S → L → Option S) : S → List L → Option S
  | s, [] => some s
  | s, l :: ls => (step s l).bind (exec step · ls)

variable {init : S → Prop} {step : S → L → Option S}

/-- An invariant that holds initially and is kept by every step holds of every
reached state. -/
theorem Reach.inv {I : S → Prop} (h0 : ∀ s, init s → I s)
    (hs : ∀ s l s', I s → step s l = some s' → I s') {s : S} (h : Reach init step s) : I s := by
  induction h with
  | init hi => exact h0 _ hi
  | step _ hstep ih => exact hs _ _ _ ih hstep

theorem guarded_eq_some {guard : S → L → Prop} [∀ s l, Decidable (guard s l)] {s s' : S} {l : L} :
    Guarded guard step s l = some s' ↔ guard s l ∧ step s l = some s' := by
  simp [Guarded]

/-- The invariant rule for the steps that meet a condition. -/
theorem Reach.inv_guarded {guard : S → L → Prop} [∀ s l, Decidable (guard s l)] {I : S → Prop}
    (h0 : ∀ s, init s → I s) (hs : ∀ s l s', I s → guard s l → step s l = some s' → I s')
    {s : S} (h : Reach init (Guarded guard step) s) : I s :=
  h.inv h0 fun s l s' hi hstep =>
    have ⟨hg, hst⟩ := guarded_eq_some.1 hstep
    hs s l s' hi hg hst

/-- A concrete run reaches its last state. -/
theorem Reach.exec {s s' : S} {ls : List L} (h : Reach init step s)
    (he : Runs.exec step s ls = some s') : Reach init step s' := by
  induction ls generalizing s with
  | nil => cases he; exact h
  | cons l ls ih =>
    obtain ⟨t, ht, he⟩ := Option.bind_eq_some_iff.1 he
    exact ih (h.step ht) he

theorem exec_append (step : S → L → Option S) (s : S) (ls ls' : List L) :
    exec step s (ls ++ ls') = (exec step s ls).bind (exec step · ls') := by
  induction ls generalizing s with
  | nil => rfl
  | cons l ls ih =>
    simp only [List.cons_append, exec, Option.bind_assoc]
    exact congrArg _ (funext ih)

theorem exec_inv {I : S → Prop} (hs : ∀ s l s', I s → step s l = some s' → I s') {s s' : S} {ls : List L} (h : I s)
    (he : exec step s ls = some s') : I s' := by
  induction ls generalizing s with
  | nil => cases he; exact h
  | cons l ls ih =>
    obtain ⟨t, ht, he⟩ := Option.bind_eq_some_iff.1 he
    exact ih (hs s l t h ht) he

/-- Where a potential pays for every step that counts, and some steps add to it, a run has no more of them than it
started with and was given. -/
theorem exec_pays_for {I : S → Prop} {potential : S → Nat} {counts : L → Bool} {gain : L → Nat}
    (hs : ∀ s l s', I s → step s l = some s' → I s' ∧ potential s' + (counts l).toNat ≤ potential s + gain l) {s s' : S}
    {ls : List L} (h : I s) (he : exec step s ls = some s') :
    potential s' + ls.countP counts ≤ potential s + (ls.map gain).sum := by
  induction ls generalizing s with
  | nil =>
    cases he
    exact Nat.le_refl _
  | cons l ls ih =>
    obtain ⟨t, ht, he⟩ := Option.bind_eq_some_iff.1 he
    obtain ⟨hinv, hpaid⟩ := hs s l t h ht
    have hrest := ih hinv he
    have hone : (if counts l = true then 1 else 0) = (counts l).toNat := by cases counts l <;> rfl
    rw [List.countP_cons, hone, List.map_cons, List.sum_cons]
    omega

/-- Where a potential pays for every step that counts, a run has no more of them than it started with. -/
theorem exec_pays {I : S → Prop} {potential : S → Nat} {counts : L → Bool}
    (hs : ∀ s l s', I s → step s l = some s' → I s' ∧ potential s' + (counts l).toNat ≤ potential s) {s s' : S}
    {ls : List L} (h : I s) (he : exec step s ls = some s') : potential s' + ls.countP counts ≤ potential s := by
  have hpaid : potential s' + ls.countP counts ≤ potential s + (ls.map fun _ => 0).sum := exec_pays_for hs h he
  rwa [List.map_const', List.sum_replicate_nat, Nat.mul_zero] at hpaid

/-- A run whose labels all meet a condition is one of the restricted system. -/
theorem exec_guarded {guard : L → Bool} {s : S} {ls : List L} (h : ∀ l ∈ ls, guard l = true) :
    exec (Guarded (fun _ l => guard l = true) step) s ls = exec step s ls := by
  induction ls generalizing s with
  | nil => rfl
  | cons l ls ih =>
    have hl : Guarded (fun _ l => guard l = true) step s l = step s l := if_pos (h l (List.mem_cons_self ..))
    rw [exec, exec, hl]
    exact Option.bind_congr fun t _ => ih fun l' hl' => h l' (List.mem_cons_of_mem _ hl')

end AtriumPortal.Lib.Runs
