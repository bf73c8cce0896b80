import Mathlib.Data.List.Basic
/-!
# Programs over a device, and two devices that answer alike

A script asks a device for one action after the other and stops at the first
that fails. The device is a state and what each action makes of it, so one
script runs on a plain device and on one that does more work for the same
answers. `run_matches`: two devices that answer alike in related states give
every script the same result, until the first one is lost for good.
-/

namespace AtriumPortal.Lib.Devices

/-- A program with actions `A`, their answers `B`, errors `E` and a result `R`. -/
inductive Script (A : Type) (B : A → Type) (E R : Type) where
  | ret (r : R)
  | throw (e : E)
  | ask (a : A) (k : B a → Script A B E R)

variable {A E R R' S T : Type} {B : A → Type}

namespace Script

def bind : Script A B E R → (R → Script A B E R') → Script A B E R'
  | .ret r, next => next r
  | .throw e, _ => .throw e
  | .ask a k, next => .ask a fun b => (k b).bind next

/-- One action as a program. -/
def call (a : A) : Script A B E (B a) := .ask a .ret

instance : Monad (Script A B E) where
  pure := .ret
  bind := .bind

@[simp] theorem pure_eq (r : R) : (pure r : Script A B E R) = .ret r := rfl

@[simp] theorem ret_bind (r : R) (next : R → Script A B E R') : (Script.ret r : Script A B E R) >>= next = next r := rfl

@[simp] theorem throw_bind (e : E) (next : R → Script A B E R') :
    (Script.throw e : Script A B E R) >>= next = .throw e := rfl

@[simp] theorem ask_bind (a : A) (k : B a → Script A B E R) (next : R → Script A B E R') :
    Script.ask a k >>= next = .ask a fun b => k b >>= next := rfl

@[simp] theorem call_bind (a : A) (next : B a → Script A B E R') :
    (Script.call a : Script A B E (B a)) >>= next = .ask a next := rfl

end Script

/-! ## Devices -/

/-- What a device does for an action in a state. -/
abbrev Device (S : Type) (A : Type) (B : A → Type) (E : Type) := S → (a : A) → Except E (B a) × S

namespace Script

def run (d : Device S A B E) : Script A B E R → S → Except E R × S
  | .ret r, s => (.ok r, s)
  | .throw e, s => (.error e, s)
  | .ask a k, s =>
    match d s a with
    | (.error e, s) => (.error e, s)
    | (.ok b, s) => (k b).run d s

variable {d : Device S A B E}

@[simp] theorem run_ret (r : R) (s : S) : (Script.ret r).run d s = (.ok r, s) := rfl

@[simp] theorem run_throw (e : E) (s : S) : (Script.throw e : Script A B E R).run d s = (.error e, s) := rfl

/-- A program in parts runs the first part, and the rest from its result. -/
theorem run_bind (p : Script A B E R) (next : R → Script A B E R') (s : S) :
    (p >>= next).run d s = match p.run d s with
      | (.error e, s) => (.error e, s)
      | (.ok r, s) => (next r).run d s := by
  induction p generalizing s with
  | ret r => rfl
  | throw e => rfl
  | ask a k ih =>
    rw [ask_bind, run, run]
    cases hd : d s a with
    | mk answer s' =>
      cases answer with
      | error e => rfl
      | ok b => exact ih b s'

theorem run_call (a : A) (s : S) : (Script.call a : Script A B E (B a)).run d s = d s a := by
  rw [call, run]
  cases hd : d s a with
  | mk answer s' => cases answer <;> rfl

/-! ## What a script asks for -/

/-- The script asks only for actions of this kind. -/
def Uses (P : A → Prop) : Script A B E R → Prop
  | .ret _ => True
  | .throw _ => True
  | .ask a k => P a ∧ ∀ b, (k b).Uses P

variable {P : A → Prop}

@[simp] theorem uses_ret (r : R) : (Script.ret r : Script A B E R).Uses P ↔ True := Iff.rfl

@[simp] theorem uses_throw (e : E) : (Script.throw e : Script A B E R).Uses P ↔ True := Iff.rfl

@[simp] theorem uses_ask {a : A} {k : B a → Script A B E R} : (Script.ask a k).Uses P ↔ P a ∧ ∀ b, (k b).Uses P := Iff.rfl

@[simp] theorem uses_call {a : A} : (Script.call a : Script A B E (B a)).Uses P ↔ P a :=
  ⟨fun h => h.1, fun h => ⟨h, fun _ => trivial⟩⟩

theorem Uses.bind {p : Script A B E R} {next : R → Script A B E R'} (h : p.Uses P) (hnext : ∀ r, (next r).Uses P) :
    (p >>= next).Uses P := by
  induction p with
  | ret r => exact hnext r
  | throw e => trivial
  | ask a k ih => exact ⟨h.1, fun b => ih b (h.2 b)⟩

theorem Uses.mono {Q : A → Prop} {p : Script A B E R} (h : p.Uses P) (hq : ∀ a, P a → Q a) : p.Uses Q := by
  induction p with
  | ret r => trivial
  | throw e => trivial
  | ask a k ih => exact ⟨hq a h.1, fun b => ih b (h.2 b)⟩

end Script

/-! ## Loops -/

/-- Takes one turn after the other until one has a result, at most so many. -/
def repeatUntil (e : E) (turn : Script A B E (Option R)) : Nat → Script A B E R
  | 0 => .throw e
  | n + 1 => turn >>= fun result => match result with
    | some r => .ret r
    | none => repeatUntil e turn n

theorem repeatUntil_succ (e : E) (turn : Script A B E (Option R)) (d : Device S A B E) (n : Nat) (s : S) :
    (repeatUntil e turn (n + 1)).run d s = match turn.run d s with
      | (.error e, s) => (.error e, s)
      | (.ok (some r), s) => (.ok r, s)
      | (.ok none, s) => (repeatUntil e turn n).run d s := by
  rw [repeatUntil, Script.run_bind]
  rcases turn.run d s with ⟨e' | _ | r, s'⟩ <;> rfl

/-- Where each turn that goes on makes the state smaller, the limit does not matter once it is
above the size of the state. -/
theorem repeatUntil_enough {e : E} {turn : Script A B E (Option R)} {d : Device S A B E} (size : S → Nat)
    (hturn : ∀ s s', turn.run d s = (.ok none, s') → size s' < size s) {n m : Nat} {s : S} (hn : size s < n)
    (hm : size s < m) : (repeatUntil e turn n).run d s = (repeatUntil e turn m).run d s := by
  induction n generalizing m s with
  | zero => exact absurd hn (Nat.not_lt_zero _)
  | succ n ih =>
    obtain ⟨m, rfl⟩ : ∃ k, m = k + 1 := Nat.exists_eq_succ_of_ne_zero (Nat.ne_zero_of_lt hm)
    rw [repeatUntil_succ, repeatUntil_succ]
    cases hrun : turn.run d s with
    | mk result s' =>
      cases result with
      | error e' => rfl
      | ok result =>
        cases result with
        | some r => rfl
        | none =>
          have hless := hturn s s' hrun
          exact ih (by omega) (by omega)

theorem Script.Uses.repeatUntil {P : A → Prop} {e : E} {turn : Script A B E (Option R)} (h : turn.Uses P) (n : Nat) :
    (repeatUntil e turn n).Uses P := by
  induction n with
  | zero => trivial
  | succ n ih =>
    refine h.bind fun result => ?_
    cases result with
    | none => exact ih
    | some r => trivial

/-! ## Two devices -/

/-- In related states the second device answers the actions of one kind as the first does,
unless the first is lost by it. -/
structure Matches (rel : S → T → Prop) (lost : S → Prop) (P : A → Prop) (d : Device S A B E) (g : Device T A B E) :
    Prop where
  /-- A device that is lost stays lost. -/
  stays : ∀ s a, lost s → lost (d s a).2
  answers : ∀ s t a, rel s t → P a → lost (d s a).2 ∨ (d s a).1 = (g t a).1 ∧ rel (d s a).2 (g t a).2

variable {rel : S → T → Prop} {lost : S → Prop} {P : A → Prop} {d : Device S A B E} {g : Device T A B E}

theorem run_lost (hstays : ∀ s a, lost s → lost (d s a).2) (p : Script A B E R) {s : S} (hs : lost s) :
    lost (p.run d s).2 := by
  induction p generalizing s with
  | ret r => exact hs
  | throw e => exact hs
  | ask a k ih =>
    have hnext := hstays s a hs
    rw [Script.run]
    cases hd : d s a with
    | mk answer s' =>
      rw [hd] at hnext
      cases answer with
      | error e => exact hnext
      | ok b => exact ih b hnext

/-- A script gives the same result on both, and leaves them related. -/
theorem run_matches (h : Matches rel lost P d g) {p : Script A B E R} (hp : p.Uses P) {s : S} {t : T} (hst : rel s t) :
    lost (p.run d s).2 ∨ (p.run d s).1 = (p.run g t).1 ∧ rel (p.run d s).2 (p.run g t).2 := by
  induction p generalizing s t with
  | ret r => exact .inr ⟨rfl, hst⟩
  | throw e => exact .inr ⟨rfl, hst⟩
  | ask a k ih =>
    have hanswer := h.answers s t a hst hp.1
    rw [Script.run, Script.run]
    cases hd : d s a with
    | mk answer s' =>
      cases hg : g t a with
      | mk answer' t' =>
        rw [hd, hg] at hanswer
        rcases hanswer with hlost | ⟨hsame, hrel⟩
        · cases answer with
          | error e => exact .inl hlost
          | ok b => exact .inl (run_lost h.stays (k b) hlost)
        · have hsame : answer = answer' := hsame
          subst hsame
          cases answer with
          | error e => exact .inr ⟨rfl, hrel⟩
          | ok b => exact ih b (hp.2 b) hrel

end AtriumPortal.Lib.Devices
