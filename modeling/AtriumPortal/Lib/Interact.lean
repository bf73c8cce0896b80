import Mathlib.Data.List.Basic
/-!
# Interactive programs

A program asks its surroundings for one action after the other and goes on with
the answers. It runs on a machine that other threads move too: between any two
actions the environment makes any list of moves, and it proposes the answer of
every action, which the machine may overrule from its state. What holds
whatever the answers is `Ends`, which goes through `bind`, and holds of every run.
-/

namespace AtriumPortal.Lib.Interact

/-- A program with actions `A`, answers `B` and result `R`. -/
inductive Prog (A : Type) (B : A → Type) (R : Type) where
  | ret (r : R)
  | ask (a : A) (k : B a → Prog A B R)

variable {S M A : Type} {B : A → Type} {R R' : Type}

namespace Prog

def bind : Prog A B R → (R → Prog A B R') → Prog A B R'
  | .ret r, k => k r
  | .ask a next, k => .ask a fun b => (next b).bind k

/-- A program with the actions `A` as one with more actions. -/
def lift {A' : Type} {B' : A' → Type} (e : A → A') (d : ∀ a, B' (e a) → B a) : Prog A B R → Prog A' B' R
  | .ret r => .ret r
  | .ask a next => .ask (e a) fun b => (next (d a b)).lift e d

@[simp] theorem bind_ret (r : R) (k : R → Prog A B R') : (ret r).bind k = k r := rfl

@[simp] theorem bind_ask (a : A) (next : B a → Prog A B R) (k : R → Prog A B R') :
    (ask a next).bind k = ask a fun b => (next b).bind k := rfl

@[simp] theorem lift_ret {A' : Type} {B' : A' → Type} (e : A → A') (d : ∀ a, B' (e a) → B a) (r : R) :
    (ret r : Prog A B R).lift e d = (ret r : Prog A' B' R) := rfl

@[simp] theorem lift_ask {A' : Type} {B' : A' → Type} (e : A → A') (d : ∀ a, B' (e a) → B a) (a : A)
    (next : B a → Prog A B R) :
    (ask a next).lift e d = (ask (e a) fun b => (next (d a b)).lift e d : Prog A' B' R) := rfl

/-- Whatever the answers, the program ends as `Q` says of its actions and its result. -/
def Ends : Prog A B R → (List (Sigma B) → R → Prop) → Prop
  | .ret r, Q => Q [] r
  | .ask a k, Q => ∀ b, (k b).Ends fun t => Q (⟨a, b⟩ :: t)

theorem ends_ret {r : R} {Q : List (Sigma B) → R → Prop} : (ret r : Prog A B R).Ends Q ↔ Q [] r := Iff.rfl

theorem Ends.mono {p : Prog A B R} {Q Q' : List (Sigma B) → R → Prop} (h : p.Ends Q) (hq : ∀ t r, Q t r → Q' t r) :
    p.Ends Q' := by
  induction p generalizing Q Q' with
  | ret r => exact hq _ _ h
  | ask a k ih => exact fun b => ih b (h b) fun t r => hq _ r

theorem Ends.bind {p : Prog A B R} {k : R → Prog A B R'} {Q : List (Sigma B) → R' → Prop}
    (h : p.Ends fun t r => (k r).Ends fun t' => Q (t ++ t')) : (p.bind k).Ends Q := by
  induction p generalizing Q with
  | ret r => exact h
  | ask a next ih => exact fun b => ih b (h b)

theorem Ends.and {p : Prog A B R} {Q Q' : List (Sigma B) → R → Prop} (h : p.Ends Q) (h' : p.Ends Q') :
    p.Ends fun t r => Q t r ∧ Q' t r := by
  induction p generalizing Q Q' with
  | ret r => exact ⟨h, h'⟩
  | ask a k ih => exact fun b => ih b (h b) (h' b)

/-- The program asks only for actions of this kind. -/
def Uses (P : A → Prop) : Prog A B R → Prop
  | .ret _ => True
  | .ask a k => P a ∧ ∀ b, (k b).Uses P

theorem Uses.bind {P : A → Prop} {p : Prog A B R} {k : R → Prog A B R'} (h : p.Uses P) (hk : ∀ r, (k r).Uses P) :
    (p.bind k).Uses P := by
  induction p with
  | ret r => exact hk r
  | ask a next ih => exact ⟨h.1, fun b => ih b (h.2 b)⟩

theorem Uses.mono {P P' : A → Prop} {p : Prog A B R} (h : p.Uses P) (hp : ∀ a, P a → P' a) : p.Uses P' := by
  induction p with
  | ret r => trivial
  | ask a k ih => exact ⟨hp a h.1, fun b => ih b (h.2 b)⟩

theorem Uses.ends {P : A → Prop} {p : Prog A B R} (h : p.Uses P) : p.Ends fun t _ => ∀ x ∈ t, P x.1 := by
  induction p with
  | ret r => exact fun x hx => nomatch hx
  | ask a k ih =>
    intro b
    refine (ih b (h.2 b)).mono fun t r ht x hx => ?_
    rcases List.mem_cons.1 hx with rfl | hx
    · exact h.1
    · exact ht x hx

theorem uses_any (p : Prog A B R) : p.Uses fun _ => True := by
  induction p with
  | ret r => trivial
  | ask a k ih => exact ⟨trivial, ih⟩

theorem ends_trivial (p : Prog A B R) : p.Ends fun _ _ => True := by
  induction p with
  | ret r => trivial
  | ask a k ih => exact fun b => ih b

/-- A program that goes on with whatever another one returns. -/
theorem Ends.bind_any {p : Prog A B R} {k : R → Prog A B R'} {Q : List (Sigma B) → R' → Prop}
    (h : ∀ t r, (k r).Ends fun t' => Q (t ++ t')) : (p.bind k).Ends Q :=
  Ends.bind (p.ends_trivial.mono fun t r _ => h t r)

/-! ### Programs as part of others -/

/-- A trace as one of a program with more actions. -/
def inject {A' : Type} {B' : A' → Type} (e : A → A') (t : List (Sigma fun a => B' (e a))) : List (Sigma B') :=
  t.map fun x => ⟨e x.1, x.2⟩

theorem Ends.lift {A' : Type} {B' : A' → Type} {e : A → A'} {p : Prog A (fun a => B' (e a)) R}
    {Q : List (Sigma fun a => B' (e a)) → R → Prop} (h : p.Ends Q) :
    (p.lift e fun _ b => b : Prog A' B' R).Ends fun t r => ∃ t₀, t = inject e t₀ ∧ Q t₀ r := by
  induction p generalizing Q with
  | ret r => exact ⟨[], rfl, h⟩
  | ask a k ih => exact fun b => (ih b (h b)).mono fun t r ⟨t₀, ht, hq⟩ => ⟨⟨a, b⟩ :: t₀, ht ▸ rfl, hq⟩

theorem Uses.lift {A' : Type} {B' : A' → Type} {e : A → A'} {P : A' → Prop} {p : Prog A (fun a => B' (e a)) R}
    (h : p.Uses fun a => P (e a)) : (p.lift e fun _ b => b : Prog A' B' R).Uses P := by
  induction p with
  | ret r => trivial
  | ask a k ih => exact ⟨h.1, fun b => ih b (h.2 b)⟩

end Prog

/-- The state a program runs on: how another thread moves it, and how an action
is answered, given the answer the environment proposes. -/
structure Machine (S M A : Type) (B : A → Type) where
  move : S → M → S
  answer : S → (a : A) → B a → B a × S

/-- What happens before the `i`-th action of a run, and the answer proposed for it. -/
structure Env (M A : Type) (B : A → Type) where
  moves : Nat → List M
  answer : Nat → (a : A) → B a

inductive Event (M A : Type) (B : A → Type) where
  | move (m : M)
  | did (a : A) (b : B a)

/-- The actions of a trace, with their answers. -/
def acts : List (Event M A B) → List (Sigma B)
  | [] => []
  | .move _ :: t => acts t
  | .did a b :: t => ⟨a, b⟩ :: acts t

theorem mem_acts {t : List (Event M A B)} {a : A} {b : B a} : ⟨a, b⟩ ∈ acts t ↔ .did a b ∈ t := by
  induction t with
  | nil => simp [acts]
  | cons e t ih =>
    cases e with
    | move x => simp [acts, ih]
    | did a' b' =>
      simp only [acts, List.mem_cons, ih, Event.did.injEq, Sigma.mk.injEq]

theorem acts_moves (ms : List M) (t : List (Event M A B)) : acts (ms.map .move ++ t) = acts t := by
  induction ms with
  | nil => rfl
  | cons x ms ih => exact ih

/-- Where an action of a run stands among its events. -/
theorem acts_eq_mid {t : List (Event M A B)} {before after : List (Sigma B)} {x : Sigma B}
    (h : acts t = before ++ x :: after) : ∃ pre post, t = pre ++ .did x.1 x.2 :: post ∧ acts pre = before := by
  induction t generalizing before with
  | nil => simp [acts] at h
  | cons e t ih =>
    cases e with
    | move m =>
      obtain ⟨pre, post, rfl, hpre⟩ := ih h
      exact ⟨.move m :: pre, post, rfl, hpre⟩
    | did a b =>
      cases before with
      | nil =>
        cases h
        exact ⟨[], t, rfl, rfl⟩
      | cons y before =>
        obtain ⟨he, h⟩ := List.cons.inj h
        obtain ⟨pre, post, rfl, hpre⟩ := ih h
        exact ⟨.did a b :: pre, post, rfl, by rw [← he, ← hpre]; rfl⟩

theorem acts_append (t t' : List (Event M A B)) : acts (t ++ t') = acts t ++ acts t' := by
  induction t with
  | nil => rfl
  | cons e t ih => cases e <;> simp [acts, ih]

/-- One action of a run, between the state it met and the state it left. -/
structure Step (S A : Type) (B : A → Type) where
  before : S
  act : A
  answer : B act
  after : S

def Step.done (x : Step S A B) : Sigma B := ⟨x.act, x.answer⟩

/-- Where an element stands in a list of two parts. -/
theorem append_eq_mid_iff {X : Type} {t t' pre post : List X} {x : X} :
    t ++ t' = pre ++ x :: post ↔
      (∃ mid, t = pre ++ x :: mid ∧ post = mid ++ t') ∨ ∃ mid, pre = t ++ mid ∧ t' = mid ++ x :: post := by
  rw [List.append_eq_append_iff]
  constructor
  · rintro (⟨mid, rfl, rfl⟩ | ⟨mid, rfl, h⟩)
    · exact .inr ⟨mid, rfl, rfl⟩
    · cases mid with
      | nil => exact .inr ⟨[], by simp, by simpa using h.symm⟩
      | cons y mid =>
        obtain ⟨rfl, rfl⟩ := List.cons.inj h
        exact .inl ⟨mid, rfl, rfl⟩
  · rintro (⟨mid, rfl, rfl⟩ | ⟨mid, rfl, rfl⟩)
    · exact .inr ⟨x :: mid, rfl, rfl⟩
    · exact .inl ⟨mid, rfl, rfl⟩

/-- A finished run: `next` counts the actions of the runs so far. -/
structure Ran (S M A : Type) (B : A → Type) (R : Type) where
  trace : List (Event M A B)
  state : S
  next : Nat
  result : R

namespace Machine

variable (m : Machine S M A B)

/-- Run a program from state `s`, whose first action is the `i`-th. -/
def exec (env : Env M A B) : Nat → S → Prog A B R → Ran S M A B R
  | i, s, .ret r => ⟨[], s, i, r⟩
  | i, s, .ask a k =>
    let x := m.answer ((env.moves i).foldl m.move s) a (env.answer i a)
    let ran := exec env (i + 1) x.2 (k x.1)
    { ran with trace := (env.moves i).map .move ++ .did a x.1 :: ran.trace }

/-- The states in which the actions of a run are answered. -/
def passes (env : Env M A B) : Nat → S → Prog A B R → List S
  | _, _, .ret _ => []
  | i, s, .ask a k =>
    let here := (env.moves i).foldl m.move s
    let x := m.answer here a (env.answer i a)
    here :: passes env (i + 1) x.2 (k x.1)

/-- Every action was answered in a state the run passed. -/
theorem exists_pass {env : Env M A B} {i : Nat} {s : S} {p : Prog A B R} {a : A} {b : B a}
    (h : .did a b ∈ (m.exec env i s p).trace) : ∃ here ∈ m.passes env i s p, ∃ b₀, b = (m.answer here a b₀).1 := by
  induction p generalizing i s with
  | ret r => cases h
  | ask a' k ih =>
    simp only [exec, List.mem_append, List.mem_map, List.mem_cons, reduceCtorEq, and_false, exists_false, false_or] at h
    rcases h with h | h
    · cases h
      exact ⟨_, List.mem_cons_self, env.answer i _, rfl⟩
    · obtain ⟨here, hin, hb⟩ := ih _ h
      exact ⟨here, List.mem_cons_of_mem _ hin, hb⟩

/-- The last action of a run leaves the state the run ends in. -/
theorem exec_last {env : Env M A B} {i : Nat} {s : S} {p : Prog A B R} {before : List (Sigma B)} {a : A} {b : B a}
    (h : acts (m.exec env i s p).trace = before ++ [⟨a, b⟩]) :
    ∃ here ∈ m.passes env i s p, ∃ b₀, b = (m.answer here a b₀).1 ∧ (m.exec env i s p).state = (m.answer here a b₀).2 := by
  induction p generalizing i s before with
  | ret r => simp [exec, acts] at h
  | ask a' k ih =>
    simp only [exec, acts_moves, acts] at h
    cases before with
    | nil =>
      simp only [List.nil_append, List.cons.injEq, Sigma.mk.injEq] at h
      obtain ⟨⟨rfl, hb⟩, hrest⟩ := h
      refine ⟨_, List.mem_cons_self, env.answer i a', (eq_of_heq hb).symm, ?_⟩
      simp only [exec]
      -- Without another action the run is over.
      generalize k _ = rest at hrest ⊢
      cases rest with
      | ret r => rfl
      | ask a'' k' => simp [exec, acts_moves, acts] at hrest
    | cons x before =>
      simp only [List.cons_append, List.cons.injEq] at h
      obtain ⟨here, hin, b₀, hb, hs⟩ := ih _ h.2
      exact ⟨here, List.mem_cons_of_mem _ hin, b₀, hb, hs⟩

/-- What holds whatever the answers holds of every run. -/
theorem exec_ends {p : Prog A B R} {Q : List (Sigma B) → R → Prop} (h : p.Ends Q) (env : Env M A B) (i : Nat) (s : S) :
    Q (acts (m.exec env i s p).trace) (m.exec env i s p).result := by
  induction p generalizing i s Q with
  | ret r => exact h
  | ask a k ih =>
    simp only [exec, acts_moves]
    exact ih _ (h _) (i + 1) _

/-- What moves and actions keep is kept by a run. -/
theorem exec_keeps {I : S → Prop} (hmove : ∀ s x, I s → I (m.move s x)) (hans : ∀ s a b, I s → I (m.answer s a b).2)
    (env : Env M A B) (i : Nat) {s : S} (h : I s) (p : Prog A B R) : I (m.exec env i s p).state := by
  have hmoves : ∀ (ms : List M) s, I s → I (ms.foldl m.move s) := by
    intro ms
    induction ms with
    | nil => exact fun _ h => h
    | cons x ms ih => exact fun s h => ih _ (hmove s x h)
  induction p generalizing i s with
  | ret r => exact h
  | ask a k ih => exact ih _ (i + 1) (hans _ _ _ (hmoves _ _ h))

/-! ## A run, action by action -/

/-- The actions of a run, with the states around them. -/
def steps (env : Env M A B) : Nat → S → Prog A B R → List (Step S A B)
  | _, _, .ret _ => []
  | i, s, .ask a k =>
    let here := (env.moves i).foldl m.move s
    let x := m.answer here a (env.answer i a)
    ⟨here, a, x.1, x.2⟩ :: steps env (i + 1) x.2 (k x.1)

theorem steps_done (env : Env M A B) (i : Nat) (s : S) (p : Prog A B R) :
    (m.steps env i s p).map Step.done = acts (m.exec env i s p).trace := by
  induction p generalizing i s with
  | ret r => rfl
  | ask a k ih => simp only [steps, exec, acts_moves, acts, List.map_cons, ih, Step.done]

/-- Each action was answered by the machine in the state it met. -/
theorem steps_answered {env : Env M A B} {i : Nat} {s : S} {p : Prog A B R} {x : Step S A B}
    (h : x ∈ m.steps env i s p) :
    ∃ b, m.answer x.before x.act b = (x.answer, x.after) := by
  induction p generalizing i s with
  | ret r => cases h
  | ask a k ih =>
    rcases List.mem_cons.1 h with rfl | h
    · exact ⟨_, rfl⟩
    · exact ih _ h

/-- What holds whatever the answers holds of the actions of a run. -/
theorem steps_ends {p : Prog A B R} {Q : List (Sigma B) → R → Prop} (h : p.Ends Q) (env : Env M A B) (i : Nat) (s : S) :
    Q ((m.steps env i s p).map Step.done) (m.exec env i s p).result := by
  rw [steps_done]
  exact m.exec_ends h env i s

/-! ## Every run, and some run, state by state -/

/-- Whatever the others do and the environment answers, the program ends as `Q` says. -/
def Must : Prog A B R → S → (List (Sigma B) → S → R → Prop) → Prop
  | .ret r, s, Q => Q [] s r
  | .ask a k, s, Q => ∀ (ms : List M) (b : B a),
    Must (k (m.answer (ms.foldl m.move s) a b).1) (m.answer (ms.foldl m.move s) a b).2 fun t =>
      Q (⟨a, (m.answer (ms.foldl m.move s) a b).1⟩ :: t)

/-- Some answers of the environment, with no moves between them, lead the program to an end as `Q` says. -/
def May : Prog A B R → S → (List (Sigma B) → S → R → Prop) → Prop
  | .ret r, s, Q => Q [] s r
  | .ask a k, s, Q =>
    ∃ b, May (k (m.answer s a b).1) (m.answer s a b).2 fun t => Q (⟨a, (m.answer s a b).1⟩ :: t)

variable {m}

theorem Must.run {p : Prog A B R} {s : S} {Q : List (Sigma B) → S → R → Prop} (h : m.Must p s Q) (env : Env M A B)
    (i : Nat) : Q (acts (m.exec env i s p).trace) (m.exec env i s p).state (m.exec env i s p).result := by
  induction p generalizing s Q i with
  | ret r => exact h
  | ask a k ih =>
    simp only [exec, acts_moves, acts]
    exact ih _ (h (env.moves i) (env.answer i a)) (i + 1)

/-- An action of a program that has the machine to itself. -/
theorem Must.ask_alone {m : Machine S Empty A B} {s : S} {a : A} {k : B a → Prog A B R}
    {Q : List (Sigma B) → S → R → Prop}
    (h : ∀ b, m.Must (k (m.answer s a b).1) (m.answer s a b).2 fun t => Q (⟨a, (m.answer s a b).1⟩ :: t)) :
    m.Must (.ask a k) s Q := by
  intro ms b
  obtain rfl : ms = [] := List.eq_nil_iff_forall_not_mem.2 fun x => x.elim
  exact h b

theorem Must.mono {p : Prog A B R} {s : S} {Q Q' : List (Sigma B) → S → R → Prop} (h : m.Must p s Q)
    (hq : ∀ t s r, Q t s r → Q' t s r) : m.Must p s Q' := by
  induction p generalizing s Q Q' with
  | ret r => exact hq _ _ _ h
  | ask a k ih => exact fun ms b => ih _ (h ms b) fun t s r => hq _ s r

theorem Must.bind {p : Prog A B R} {k : R → Prog A B R'} {s : S} {Q : List (Sigma B) → S → R' → Prop}
    (h : m.Must p s fun t s' r => m.Must (k r) s' fun t' => Q (t ++ t')) : m.Must (p.bind k) s Q := by
  induction p generalizing s Q with
  | ret r => exact h
  | ask a next ih => exact fun ms b => ih _ (h ms b)

theorem Must.any {p : Prog A B R} {s : S} {Q : List (Sigma B) → S → R → Prop} (h : ∀ t s r, Q t s r) : m.Must p s Q := by
  induction p generalizing s Q with
  | ret r => exact h _ _ _
  | ask a k ih => exact fun ms b => ih _ fun t s r => h _ s r

theorem Must.and {p : Prog A B R} {s : S} {Q Q' : List (Sigma B) → S → R → Prop} (h : m.Must p s Q)
    (h' : m.Must p s Q') : m.Must p s fun t s r => Q t s r ∧ Q' t s r := by
  induction p generalizing s Q Q' with
  | ret r => exact ⟨h, h'⟩
  | ask a k ih => exact fun ms b => ih _ (h ms b) (h' ms b)

/-- What holds whatever the answers, besides what the machine sees to. -/
theorem Must.and_ends {p : Prog A B R} {s : S} {Q : List (Sigma B) → S → R → Prop} {Q' : List (Sigma B) → R → Prop}
    (h : m.Must p s Q) (h' : p.Ends Q') : m.Must p s fun t s r => Q t s r ∧ Q' t r := by
  induction p generalizing s Q Q' with
  | ret r => exact ⟨h, h'⟩
  | ask a k ih => exact fun ms b => ih _ (h ms b) (h' _)

theorem May.ret {s : S} {r : R} {Q : List (Sigma B) → S → R → Prop} (h : Q [] s r) : m.May (.ret r) s Q := h

/-- An answer that the environment can bring about. -/
theorem May.ask {s s' : S} {a : A} {b b' : B a} {k : B a → Prog A B R} {Q : List (Sigma B) → S → R → Prop}
    (h : m.answer s a b = (b', s')) (hk : m.May (k b') s' fun t => Q (⟨a, b'⟩ :: t)) : m.May (.ask a k) s Q :=
  ⟨b, by rwa [h]⟩

theorem May.mono {p : Prog A B R} {s : S} {Q Q' : List (Sigma B) → S → R → Prop} (h : m.May p s Q)
    (hq : ∀ t s r, Q t s r → Q' t s r) : m.May p s Q' := by
  induction p generalizing s Q Q' with
  | ret r => exact hq _ _ _ h
  | ask a k ih =>
    obtain ⟨b, h⟩ := h
    exact ⟨b, ih _ h fun t s r => hq _ s r⟩

theorem May.bind {p : Prog A B R} {k : R → Prog A B R'} {s : S} {Q : List (Sigma B) → S → R' → Prop}
    (h : m.May p s fun t s' r => m.May (k r) s' fun t' => Q (t ++ t')) : m.May (p.bind k) s Q := by
  induction p generalizing s Q with
  | ret r => exact h
  | ask a next ih =>
    obtain ⟨b, h⟩ := h
    exact ⟨b, ih _ h⟩

/-- A run only looks at the environment from its first action on. -/
theorem exec_congr {env env' : Env M A B} {i : Nat} (hm : ∀ j, i ≤ j → env.moves j = env'.moves j)
    (ha : ∀ j, i ≤ j → env.answer j = env'.answer j) (s : S) (p : Prog A B R) :
    m.exec env i s p = m.exec env' i s p := by
  induction p generalizing i s with
  | ret r => rfl
  | ask a k ih =>
    have hih := fun b s => ih b (i := i + 1) (fun j hj => hm j (by omega)) (fun j hj => ha j (by omega)) s
    simp only [exec, hm i (Nat.le_refl i), ha i (Nat.le_refl i), hih]

/-- What may happen happens in a run. -/
theorem May.exists_run [DecidableEq A] (base : Env M A B) {p : Prog A B R} {s : S}
    {Q : List (Sigma B) → S → R → Prop} (h : m.May p s Q) (i : Nat) :
    ∃ env, Q (acts (m.exec env i s p).trace) (m.exec env i s p).state (m.exec env i s p).result := by
  induction p generalizing s Q i with
  | ret r => exact ⟨base, h⟩
  | ask a k ih =>
    obtain ⟨b, h⟩ := h
    obtain ⟨env, hq⟩ := ih _ h (i + 1)
    -- Answer `b` now, and go on as `env` does.
    let env' : Env M A B :=
      ⟨fun j => if j = i then [] else env.moves j,
        fun j a' => if j = i then if h : a' = a then h ▸ b else env.answer j a' else env.answer j a'⟩
    refine ⟨env', ?_⟩
    have hrest : ∀ s (p : Prog A B R), m.exec env' (i + 1) s p = m.exec env (i + 1) s p := fun s p =>
      exec_congr (fun j hj => if_neg (by omega)) (fun j hj => funext fun a' => if_neg (by omega)) s p
    have hnow : env'.answer i a = b := by simp [env']
    have hmoves : env'.moves i = [] := if_pos rfl
    simpa only [exec, hmoves, hnow, hrest, List.map_nil, List.nil_append, List.foldl_nil, acts] using hq

/-! ## A machine that is part of another -/

section Part

variable {S' M' A' : Type} {B' : A' → Type} {e : A → A'} {part : Machine S Empty A fun a => B' (e a)}
  {whole : Machine S' M' A' B'} {get : S' → S}

/-- The part of the state behind `get` answers the actions `e`, and nothing else moves it. -/
structure Part (part : Machine S Empty A fun a => B' (e a)) (whole : Machine S' M' A' B') (get : S' → S) : Prop where
  move : ∀ s x, get (whole.move s x) = get s
  answer : ∀ s a b, (whole.answer s (e a) b).1 = (part.answer (get s) a b).1 ∧
    get (whole.answer s (e a) b).2 = (part.answer (get s) a b).2

theorem get_moves (hmove : ∀ s x, get (whole.move s x) = get s) (ms : List M') (s : S') :
    get (ms.foldl whole.move s) = get s := by
  induction ms generalizing s with
  | nil => rfl
  | cons x ms ih => exact (ih _).trans (hmove s x)

/-- What a program must do on the part it must do on the whole. -/
theorem Must.lift (hpart : Part part whole get) {p : Prog A (fun a => B' (e a)) R} {s : S'}
    {Q : List (Sigma fun a => B' (e a)) → S → R → Prop} (h : part.Must p (get s) Q) :
    whole.Must (p.lift e fun _ b => b) s fun t s' r => ∃ t₀, t = Prog.inject e t₀ ∧ Q t₀ (get s') r := by
  induction p generalizing s Q with
  | ret r => exact ⟨[], rfl, h⟩
  | ask a k ih =>
    intro ms b
    obtain ⟨hb, hs⟩ := hpart.answer (ms.foldl whole.move s) a b
    rw [get_moves hpart.move] at hb hs
    have hk := h [] b
    simp only [List.foldl_nil, ← hs, ← hb] at hk
    exact (ih _ hk).mono fun t s' r ⟨t₀, ht, hq⟩ => ⟨⟨a, _⟩ :: t₀, ht ▸ rfl, hq⟩

/-- A program that leaves the part alone. -/
theorem Must.apart (hmove : ∀ s x, get (whole.move s x) = get s) {P : A' → Prop}
    (hanswer : ∀ s a b, P a → get (whole.answer s a b).2 = get s) {p : Prog A' B' R} (hp : p.Uses P) (s : S') :
    whole.Must p s fun t s' _ => get s' = get s ∧ ∀ x ∈ t, P x.1 := by
  induction p generalizing s with
  | ret r => exact ⟨rfl, fun x hx => nomatch hx⟩
  | ask a k ih =>
    intro ms b
    refine (ih _ (hp.2 _) _).mono fun t s' r ⟨hs, ht⟩ => ⟨?_, ?_⟩
    · rw [hs, hanswer _ _ _ hp.1, get_moves hmove]
    · intro x hx
      rcases List.mem_cons.1 hx with rfl | hx
      · exact hp.1
      · exact ht x hx

end Part

end Machine

end AtriumPortal.Lib.Interact
