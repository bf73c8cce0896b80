import AtriumPortal.Lib.Interact
import AtriumPortal.Lib.Runs
/-!
# Programs next to each other

A pool runs any number of interactive programs over one shared state: a step starts
a program, lets one of them take its next action, or moves the state from outside.
What the steps keep, whoever takes them, holds of the shared state of every run.
-/
open AtriumPortal.Lib.Runs

namespace AtriumPortal.Lib.Interact

variable {S M W A R : Type} {B : A → Type}

/-- A running program, and what it was called with. -/
structure Task (W A : Type) (B : A → Type) (R : Type) where
  call : W
  rest : Prog A B R

structure Pool (S W A : Type) (B : A → Type) (R : Type) where
  shared : S
  tasks : List (Task W A B R)

/-- What a call runs, how its actions are answered, and how the state moves without it. -/
structure System (S M W A : Type) (B : A → Type) (R : Type) where
  program : W → Prog A B R
  answer : W → S → (a : A) → B a → B a × S
  move : S → M → S

inductive Label (M W A : Type) (B : A → Type) where
  | spawn (call : W)
  /-- The answer proposed for the next action of the `i`-th program. -/
  | act (i : Nat) (b : (a : A) → B a)
  | move (m : M)

/-- The program has ended. -/
def Task.finished : Task W A B R → Bool
  | ⟨_, .ret _⟩ => true
  | ⟨_, .ask _ _⟩ => false

/-- The action a program takes next. -/
def Task.next : Task W A B R → Option A
  | ⟨_, .ret _⟩ => none
  | ⟨_, .ask a _⟩ => some a

/-- The action the `i`-th program takes next. -/
def Pool.next (p : Pool S W A B R) (i : Nat) : Option A := p.tasks[i]?.bind Task.next

namespace System

variable (sys : System S M W A B R)

def step (p : Pool S W A B R) : Label M W A B → Option (Pool S W A B R)
  | .spawn call => some { p with tasks := p.tasks ++ [⟨call, sys.program call⟩] }
  | .act i b =>
    match p.tasks[i]? with
    | some ⟨call, .ask a k⟩ =>
      let x := sys.answer call p.shared a (b a)
      some ⟨x.2, p.tasks.set i ⟨call, k x.1⟩⟩
    | _ => none
  | .move m => some { p with shared := sys.move p.shared m }

/-- A pool without programs. -/
def start (s : S) : Pool S W A B R := ⟨s, []⟩

variable {sys}

/-- What a step does to the shared state: nothing, an action's answer, or a move. -/
theorem step_shared {p p' : Pool S W A B R} {l : Label M W A B} (h : sys.step p l = some p') :
    (∃ call, l = .spawn call ∧ p'.shared = p.shared) ∨
      (∃ i b call a, l = .act i b ∧ p.next i = some a ∧ p'.shared = (sys.answer call p.shared a (b a)).2) ∨
      ∃ m, l = .move m ∧ p'.shared = sys.move p.shared m := by
  cases l with
  | spawn call =>
    cases h
    exact .inl ⟨call, rfl, rfl⟩
  | act i b =>
    simp only [step] at h
    split at h
    · next call a k hi =>
      cases h
      exact .inr (.inl ⟨i, b, call, a, rfl, by simp [Pool.next, hi, Task.next], rfl⟩)
    · cases h
  | move m =>
    cases h
    exact .inr (.inr ⟨m, rfl, rfl⟩)

/-- An invariant of the shared state, over the runs whose steps meet a condition. -/
theorem reach_shared {guard : Pool S W A B R → Label M W A B → Prop} [∀ p l, Decidable (guard p l)] {I : S → Prop}
    {s : S}
    (hs : I s)
    (hact : ∀ p i b call a, I p.shared → guard p (.act i b) → p.next i = some a → I (sys.answer call p.shared a (b a)).2)
    (hmove : ∀ p m, I p.shared → guard p (.move m) → I (sys.move p.shared m)) {p : Pool S W A B R}
    (h : Reach (· = start s) (Guarded guard sys.step) p) : I p.shared := by
  refine h.inv_guarded (I := fun p => I p.shared) ?_ ?_
  · rintro p rfl
    exact hs
  · intro p l p' hi hg hstep
    rcases step_shared hstep with ⟨call, rfl, he⟩ | ⟨i, b, call, a, rfl, ha, he⟩ | ⟨m, rfl, he⟩
    · rw [he]
      exact hi
    · rw [he]
      exact hact p i b call a hi hg ha
    · rw [he]
      exact hmove p m hi hg

end System

end AtriumPortal.Lib.Interact
