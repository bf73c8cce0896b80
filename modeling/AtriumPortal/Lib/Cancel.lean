import AtriumPortal.Lib.Interact
/-!
# Programs that can be cancelled

Other threads raise a flag; the program looks at it now and then, and at some
point it commits. `CloseWins` says that a flag raised before the commit refuses
the work. For a program that turns back at every look (`Sound`), works only
after a granting commit (`Honest`) and then carries the work out (`Final`), this
fails exactly in the runs that are `Unguarded`: the flag goes up after the last
look and before a commit that grants.
-/
open AtriumPortal.Lib.Interact

namespace AtriumPortal.Lib.Cancel

variable {S M A : Type} {B : A → Type} {R : Type}

/-- What the actions of a program mean for its cancellation. -/
structure Watch (A : Type) (B : A → Type) (R : Type) where
  /-- What a look at the flag saw. -/
  looks : (a : A) → B a → Option Bool
  /-- The program commits: a later flag comes too late. -/
  commits : (a : A) → B a → Bool
  /-- The commit grants the work. -/
  grants : (a : A) → B a → Bool
  /-- The action is part of the granted work. -/
  effect : (a : A) → B a → Bool
  refused : R → Prop
  grants_commits : ∀ a b, grants a b = true → commits a b = true

/-- The flag of a machine: only others move the state, what goes up stays up, and a
look sees it as it is. -/
structure Flagged (m : Machine S M A B) (w : Watch A B R) (flag : S → Bool) : Prop where
  still : ∀ s a b, (m.answer s a b).2 = s
  sees : ∀ s a b v, w.looks a (m.answer s a b).1 = some v → v = flag s
  stays : ∀ s x, flag s = true → flag (m.move s x) = true

variable {R' : Type} (w : Watch A B R)

/-! ## Shapes of programs -/

/-- The program refuses, whatever happens. -/
def Refuses : Prog A B R → Prop
  | .ret r => w.refused r
  | .ask a k => ∀ b, w.effect a b = false ∧ Refuses (k b)

/-- The program looks at the flag no more. -/
def NoLooks : Prog A B R' → Prop
  | .ret _ => True
  | .ask a k => ∀ b, w.looks a b = none ∧ NoLooks (k b)

/-- A look that sees the flag ends in refusal, and no work is done before the last look. -/
def Sound : Prog A B R → Prop
  | .ret _ => True
  | .ask a k => ∀ b, match w.looks a b with
    | some true => w.effect a b = false ∧ Refuses w (k b)
    | some false => Sound (k b)
    | none => if w.effect a b = true then NoLooks w (k b) else Sound (k b)

/-- Without a granting commit the program refuses. -/
def Honest : Prog A B R → Prop
  | .ret r => w.refused r
  | .ask a k => ∀ b, w.grants a b = false → w.effect a b = false ∧ Honest (k b)

/-- The program does not refuse, unless it looks at the flag again. -/
def Grants : Prog A B R → Prop
  | .ret r => ¬ w.refused r
  | .ask a k => ∀ b, w.looks a b = none → Grants (k b)

/-- A granting commit is work, or is followed by work unless the flag is looked at again. -/
def Final : Prog A B R → Prop
  | .ret _ => True
  | .ask a k => ∀ b, if w.grants a b = true then w.effect a b = true ∨ Grants w (k b) else Final (k b)

/-- The first action is a look. -/
def LooksFirst : Prog A B R → Prop
  | .ret _ => False
  | .ask a _ => ∀ b, w.looks a b ≠ none

/-- A granting commit is followed by a look. -/
def Rechecked : Prog A B R → Prop
  | .ret _ => True
  | .ask a k => ∀ b, (w.grants a b = true → LooksFirst w (k b)) ∧ Rechecked (k b)

/-- Part of a program that does no work and ends in `Q`. -/
def Yields (Q : R' → Prop) : Prog A B R' → Prop
  | .ret r => Q r
  | .ask a k => ∀ b, w.effect a b = false ∧ Yields Q (k b)

/-- Part of a program that neither grants nor works, and ends in `Q` once it has
seen the flag. -/
def Heeds (Q : R' → Prop) : Prog A B R' → Prop
  | .ret _ => True
  | .ask a k => ∀ b, w.grants a b = false ∧ w.effect a b = false ∧ (w.looks a b = some true → Yields w Q (k b)) ∧
      Heeds Q (k b)

/-! ## Composition -/

section
variable {w} {p : Prog A B R'} {k : R' → Prog A B R} {Q : R' → Prop}

theorem NoLooks.bind (h : NoLooks w p) (hk : ∀ r, NoLooks w (k r)) : NoLooks w (p.bind k) := by
  induction p with
  | ret r => exact hk r
  | ask a next ih => exact fun b => ⟨(h b).1, ih b (h b).2⟩

theorem NoLooks.sound {p : Prog A B R} (h : NoLooks w p) : Sound w p := by
  induction p with
  | ret r => trivial
  | ask a k ih =>
    intro b
    simp only [(h b).1]
    split
    · exact (h b).2
    · exact ih b (h b).2

theorem Yields.refuses (h : Yields w Q p) (hk : ∀ r, Q r → Refuses w (k r)) : Refuses w (p.bind k) := by
  induction p with
  | ret r => exact hk r h
  | ask a next ih => exact fun b => ⟨(h b).1, ih b (h b).2⟩

theorem Heeds.rechecked (h : Heeds w Q p) (hk : ∀ r, Rechecked w (k r)) : Rechecked w (p.bind k) := by
  induction p with
  | ret r => exact hk r
  | ask a next ih => exact fun b => ⟨fun hg => absurd hg (by simp [(h b).1]), ih b (h b).2.2.2⟩

/-- A part that turns back when it sees the flag, before one that is sound itself. -/
theorem Heeds.sound (h : Heeds w Q p) (hq : ∀ r, Q r → Refuses w (k r)) (hk : ∀ r, Sound w (k r)) :
    Sound w (p.bind k) := by
  induction p with
  | ret r => exact hk r
  | ask a next ih =>
    intro b
    obtain ⟨-, he, hseen, hnext⟩ := h b
    cases hl : w.looks a b with
    | none =>
      simp only
      rw [if_neg (by simp [he])]
      exact ih b hnext
    | some v =>
      cases v with
      | true => exact ⟨he, (hseen hl).refuses hq⟩
      | false => exact ih b hnext

end

/-! ## Runs -/

/-- The state after a trace of a machine that only others move. -/
def after (m : Machine S M A B) (s : S) (t : List (Event M A B)) : S :=
  t.foldl (fun s e => match e with
    | .move x => m.move s x
    | .did _ _ => s) s

variable {w} {m : Machine S M A B} {flag : S → Bool}

theorem after_moves (s : S) (ms : List M) : after m s (ms.map .move) = ms.foldl m.move s := by
  induction ms generalizing s with
  | nil => rfl
  | cons x ms ih => exact ih (m.move s x)

theorem after_append (s : S) (t t' : List (Event M A B)) : after m s (t ++ t') = after m (after m s t) t' := by
  simp [after]

theorem Flagged.moves (hm : Flagged m w flag) {s : S} (h : flag s = true) (ms : List M) :
    flag (ms.foldl m.move s) = true := by
  induction ms generalizing s with
  | nil => exact h
  | cons x ms ih => exact ih (hm.stays s x h)

/-- A split of a trace that starts with one action lies behind the action or among
the moves before it. -/
theorem split_action {ms : List M} {a : A} {b : B a} {t pre post : List (Event M A B)}
    (h : ms.map .move ++ .did a b :: t = pre ++ post) :
    (∃ pre', pre = ms.map .move ++ .did a b :: pre' ∧ t = pre' ++ post) ∨
      ∃ ms₁ ms₂, ms = ms₁ ++ ms₂ ∧ pre = ms₁.map .move ∧ post = ms₂.map .move ++ .did a b :: t := by
  rcases List.append_eq_append_iff.1 h with ⟨l, rfl, hl⟩ | ⟨l, hl, rfl⟩
  · cases l with
    | nil =>
      simp only [List.nil_append] at hl
      exact .inr ⟨ms, [], by simp, by simp, by simp [hl]⟩
    | cons e l =>
      simp only [List.cons_append, List.cons.injEq] at hl
      obtain ⟨rfl, rfl⟩ := hl
      exact .inl ⟨l, rfl, rfl⟩
  · obtain ⟨ms₁, ms₂, rfl, rfl, rfl⟩ := List.map_eq_append_iff.1 hl
    exact .inr ⟨ms₁, ms₂, rfl, rfl, rfl⟩

/-- The actions of a run: the first one, and those of the rest. -/
theorem mem_exec_ask {env : Env M A B} {i : Nat} {s : S} {a : A} {k : B a → Prog A B R} {a' : A} {b' : B a'} :
    .did a' b' ∈ (m.exec env i s (.ask a k)).trace ↔
      (Event.did a' b' : Event M A B) = .did a (m.answer ((env.moves i).foldl m.move s) a (env.answer i a)).1 ∨
        .did a' b' ∈ (m.exec env (i + 1) (m.answer ((env.moves i).foldl m.move s) a (env.answer i a)).2
          (k (m.answer ((env.moves i).foldl m.move s) a (env.answer i a)).1)).trace := by
  simp [Machine.exec]

theorem Refuses.run {p : Prog A B R} (h : Refuses w p) (env : Env M A B) (i : Nat) (s : S) :
    w.refused (m.exec env i s p).result ∧ ∀ a b, .did a b ∈ (m.exec env i s p).trace → w.effect a b = false := by
  induction p generalizing i s with
  | ret r => exact ⟨h, by simp [Machine.exec]⟩
  | ask a k ih =>
    obtain ⟨he, hk⟩ := h (m.answer ((env.moves i).foldl m.move s) a (env.answer i a)).1
    obtain ⟨hr, ht⟩ := ih _ hk (i + 1) (m.answer ((env.moves i).foldl m.move s) a (env.answer i a)).2
    refine ⟨hr, fun a' b' hm => ?_⟩
    rcases mem_exec_ask.1 hm with hm | hm
    · cases hm; exact he
    · exact ht a' b' hm

theorem NoLooks.run {p : Prog A B R} (h : NoLooks w p) (env : Env M A B) (i : Nat) (s : S) :
    ∀ a b, .did a b ∈ (m.exec env i s p).trace → w.looks a b = none := by
  induction p generalizing i s with
  | ret r => simp [Machine.exec]
  | ask a k ih =>
    obtain ⟨hl, hk⟩ := h (m.answer ((env.moves i).foldl m.move s) a (env.answer i a)).1
    intro a' b' hm
    rcases mem_exec_ask.1 hm with hm | hm
    · cases hm; exact hl
    · exact ih _ hk (i + 1) _ a' b' hm

/-- A run without a granting commit refuses and does no work. -/
theorem Honest.run {p : Prog A B R} (h : Honest w p) (env : Env M A B) (i : Nat) (s : S)
    (hno : ∀ a b, .did a b ∈ (m.exec env i s p).trace → w.grants a b = false) :
    w.refused (m.exec env i s p).result ∧ ∀ a b, .did a b ∈ (m.exec env i s p).trace → w.effect a b = false := by
  induction p generalizing i s with
  | ret r => exact ⟨h, by simp [Machine.exec]⟩
  | ask a k ih =>
    obtain ⟨he, hk⟩ := h _ (hno _ _ (mem_exec_ask.2 (.inl rfl)))
    obtain ⟨hr, ht⟩ := ih _ hk (i + 1) _ fun a' b' hm => hno a' b' (mem_exec_ask.2 (.inr hm))
    refine ⟨hr, fun a' b' hm => ?_⟩
    rcases mem_exec_ask.1 hm with hm | hm
    · cases hm; exact he
    · exact ht a' b' hm

/-- A run that does not look again is not refused. -/
theorem Grants.run {p : Prog A B R} (h : Grants w p) (env : Env M A B) (i : Nat) (s : S)
    (hno : ∀ a b, .did a b ∈ (m.exec env i s p).trace → w.looks a b = none) :
    ¬ w.refused (m.exec env i s p).result := by
  induction p generalizing i s with
  | ret r => exact h
  | ask a k ih =>
    exact ih _ (h _ (hno _ _ (mem_exec_ask.2 (.inl rfl)))) (i + 1) _ fun a' b' hm => hno a' b' (mem_exec_ask.2 (.inr hm))

/-- With the flag up at its first action, a sound program that looks again refuses. -/
theorem Sound.run_flagged (hm : Flagged m w flag) {p : Prog A B R} (h : Sound w p) (env : Env M A B) (i : Nat) (s : S)
    (hf : flag ((env.moves i).foldl m.move s) = true)
    (hl : ∃ a b, .did a b ∈ (m.exec env i s p).trace ∧ w.looks a b ≠ none) :
    w.refused (m.exec env i s p).result ∧ ∀ a b, .did a b ∈ (m.exec env i s p).trace → w.effect a b = false := by
  induction p generalizing i s with
  | ret r =>
    obtain ⟨a, b, hin, _⟩ := hl
    cases hin
  | ask a k ih =>
    have hstill := hm.still ((env.moves i).foldl m.move s) a (env.answer i a)
    have hsees := hm.sees ((env.moves i).foldl m.move s) a (env.answer i a)
    have hb := h (m.answer ((env.moves i).foldl m.move s) a (env.answer i a)).1
    -- What the first action contributes to the run, whatever it is.
    have first : ∀ {P : Prop}, w.effect a (m.answer ((env.moves i).foldl m.move s) a (env.answer i a)).1 = false →
        (P ∧ ∀ a' b', .did a' b' ∈ (m.exec env (i + 1) (m.answer ((env.moves i).foldl m.move s) a (env.answer i a)).2
          (k (m.answer ((env.moves i).foldl m.move s) a (env.answer i a)).1)).trace → w.effect a' b' = false) →
        P ∧ ∀ a' b', .did a' b' ∈ (m.exec env i s (.ask a k)).trace → w.effect a' b' = false := by
      rintro P he ⟨hp, ht⟩
      refine ⟨hp, fun a' b' hin => ?_⟩
      rcases mem_exec_ask.1 hin with hin | hin
      · cases hin; exact he
      · exact ht a' b' hin
    cases hlook : w.looks a (m.answer ((env.moves i).foldl m.move s) a (env.answer i a)).1 with
    | some v =>
      obtain rfl : v = true := (hsees v hlook).trans hf
      simp only [hlook] at hb
      exact first hb.1 (hb.2.run env (i + 1) _)
    | none =>
      simp only [hlook] at hb
      -- The look comes later, so this action is no work yet.
      obtain ⟨a', b', hin, hne⟩ := hl
      rcases mem_exec_ask.1 hin with hin | hin
      · cases hin; exact absurd hlook hne
      · split at hb
        · exact absurd (hb.run env (i + 1) _ a' b' hin) hne
        · next he =>
          have hf₁ := hm.moves (hstill ▸ hf) (env.moves (i + 1))
          exact first (by simpa using he) (ih _ hb (i + 1) _ hf₁ ⟨a', b', hin, hne⟩)

/-- The same from any point of the run at which the flag is up. -/
theorem Sound.run (hm : Flagged m w flag) {p : Prog A B R} (h : Sound w p) (env : Env M A B) (i : Nat) (s : S)
    {pre post : List (Event M A B)} (ht : (m.exec env i s p).trace = pre ++ post) (hf : flag (after m s pre) = true)
    (hl : ∃ a b, .did a b ∈ post ∧ w.looks a b ≠ none) :
    w.refused (m.exec env i s p).result ∧ ∀ a b, .did a b ∈ post → w.effect a b = false := by
  induction p generalizing i s pre with
  | ret r =>
    obtain ⟨a, b, hin, _⟩ := hl
    obtain ⟨rfl, rfl⟩ := List.append_eq_nil_iff.1 ht.symm
    cases hin
  | ask a k ih =>
    have hin : ∀ e ∈ post, e ∈ (m.exec env i s (.ask a k)).trace := fun e he => ht ▸ List.mem_append_right pre he
    rcases split_action ht with ⟨pre', rfl, htail⟩ | ⟨ms₁, ms₂, hms, rfl, rfl⟩
    · -- The action is behind us: what it saw decides.
      have hstill := hm.still ((env.moves i).foldl m.move s) a (env.answer i a)
      have hb := h (m.answer ((env.moves i).foldl m.move s) a (env.answer i a)).1
      have htail' : ∀ e ∈ post, e ∈ (m.exec env (i + 1) (m.answer ((env.moves i).foldl m.move s) a (env.answer i a)).2
          (k (m.answer ((env.moves i).foldl m.move s) a (env.answer i a)).1)).trace :=
        fun e he => htail ▸ List.mem_append_right pre' he
      have hf' : flag (after m (m.answer ((env.moves i).foldl m.move s) a (env.answer i a)).2 pre') = true := by
        rw [hstill, ← after_moves, ← hf, after_append]
        rfl
      cases hlook : w.looks a (m.answer ((env.moves i).foldl m.move s) a (env.answer i a)).1 with
      | some v =>
        cases v with
        | true =>
          simp only [hlook] at hb
          obtain ⟨hr, he⟩ := hb.2.run env (i + 1) (m.answer ((env.moves i).foldl m.move s) a (env.answer i a)).2
          exact ⟨hr, fun a' b' hm' => he a' b' (htail' _ hm')⟩
        | false =>
          simp only [hlook] at hb
          exact ih _ hb (i + 1) _ htail hf'
      | none =>
        simp only [hlook] at hb
        split at hb
        · obtain ⟨a', b', hin', hne⟩ := hl
          exact absurd (hb.run env (i + 1) _ a' b' (htail' _ hin')) hne
        · exact ih _ hb (i + 1) _ htail hf'
    · have hfirst : flag ((env.moves i).foldl m.move s) = true := by
        rw [after_moves] at hf
        rw [hms, List.foldl_append]
        exact hm.moves hf ms₂
      obtain ⟨a', b', hin', hne⟩ := hl
      obtain ⟨hr, he⟩ := h.run_flagged hm env i s hfirst ⟨a', b', hin _ hin', hne⟩
      exact ⟨hr, fun a' b' hm' => he a' b' (hin _ hm')⟩

/-- A granting commit with no look behind it is carried out. -/
theorem Final.run {p : Prog A B R} (h : Final w p) (env : Env M A B) (i : Nat) (s : S)
    {pre post : List (Event M A B)} (ht : (m.exec env i s p).trace = pre ++ post)
    (hl : ∀ a b, .did a b ∈ post → w.looks a b = none) (hg : ∃ a b, .did a b ∈ post ∧ w.grants a b = true)
    (hpre : ∀ a b, .did a b ∈ pre → w.grants a b = false) :
    (∃ a b, .did a b ∈ post ∧ w.effect a b = true) ∨ ¬ w.refused (m.exec env i s p).result := by
  induction p generalizing i s pre post with
  | ret r =>
    obtain ⟨a, b, hin, _⟩ := hg
    obtain ⟨rfl, rfl⟩ := List.append_eq_nil_iff.1 ht.symm
    cases hin
  | ask a k ih =>
    have hb := h (m.answer ((env.moves i).foldl m.move s) a (env.answer i a)).1
    rcases split_action ht with ⟨pre', rfl, htail⟩ | ⟨ms₁, ms₂, hms, rfl, rfl⟩
    · rw [if_neg (by simp [hpre])] at hb
      exact ih _ hb (i + 1) _ htail hl hg fun a' b' hm => hpre a' b' (by simp [hm])
    · split at hb
      · rcases hb with he | hb
        · exact .inl ⟨_, _, by simp, he⟩
        · exact .inr (hb.run env (i + 1) _ fun a' b' hm => hl a' b' (by simp [hm]))
      · next hno =>
        obtain ⟨a', b', hin, hgr⟩ := hg
        have hin' : Event.did a' b' ∈ (m.exec env (i + 1) (m.answer ((env.moves i).foldl m.move s) a (env.answer i a)).2
            (k (m.answer ((env.moves i).foldl m.move s) a (env.answer i a)).1)).trace := by
          simp only [List.mem_append, List.mem_cons, List.mem_map, reduceCtorEq, and_false, exists_false, false_or] at hin
          rcases hin with hin | hin
          · cases hin; exact absurd hgr hno
          · exact hin
        rcases ih _ hb (i + 1) _ (List.nil_append _).symm (fun a'' b'' hm => hl a'' b'' (by simp [hm]))
          ⟨a', b', hin', hgr⟩ (by simp) with ⟨a'', b'', hm, he⟩ | hr
        · exact .inl ⟨a'', b'', by simp [hm], he⟩
        · exact .inr hr

/-- No grant of a program that looks again is the last of it. -/
theorem Rechecked.run {p : Prog A B R} (h : Rechecked w p) (env : Env M A B) (i : Nat) (s : S)
    {pre post : List (Event M A B)} (ht : (m.exec env i s p).trace = pre ++ post)
    (hg : ∃ a b, .did a b ∈ post ∧ w.grants a b = true) : ∃ a b, .did a b ∈ post ∧ w.looks a b ≠ none := by
  induction p generalizing i s pre post with
  | ret r =>
    obtain ⟨a, b, hin, _⟩ := hg
    obtain ⟨rfl, rfl⟩ := List.append_eq_nil_iff.1 ht.symm
    cases hin
  | ask a k ih =>
    obtain ⟨hlook, hk⟩ := h (m.answer ((env.moves i).foldl m.move s) a (env.answer i a)).1
    rcases split_action ht with ⟨pre', rfl, htail⟩ | ⟨ms₁, ms₂, hms, rfl, rfl⟩
    · exact ih _ hk (i + 1) _ htail hg
    · obtain ⟨a', b', hin, hgr⟩ := hg
      simp only [List.mem_append, List.mem_cons, List.mem_map, reduceCtorEq, and_false, exists_false, false_or] at hin
      rcases hin with hin | hin
      · -- The grant is this action, and the next one looks.
        cases hin
        have hfirst := hlook hgr
        revert hfirst
        generalize k (m.answer ((env.moves i).foldl m.move s) a (env.answer i a)).1 = rest
        intro hfirst
        cases rest with
        | ret r => exact hfirst.elim
        | ask a'' k'' =>
          exact ⟨a'', _, List.mem_append_right _ (List.mem_cons_of_mem _ (mem_exec_ask.2 (.inl rfl))), hfirst _⟩
      · obtain ⟨a'', b'', hin'', hne⟩ := ih _ hk (i + 1) _ (List.nil_append _).symm ⟨a', b', hin, hgr⟩
        exact ⟨a'', b'', by simp [hin''], hne⟩

end AtriumPortal.Lib.Cancel
