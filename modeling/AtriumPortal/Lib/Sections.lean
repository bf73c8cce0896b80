import Mathlib.Algebra.GroupWithZero.Nat
import Mathlib.Data.List.Basic
/-!
# Lines in sections

Lines among which headers open sections, seen from one key of one section, the goal: which
lines are its entries, and setting it. Setting the key keeps the other lines as they
are, rewrites every entry and puts a fresh one where none was, and is idempotent.
-/

namespace AtriumPortal.Lib.Sections

/-- What a line is for the key. A section of the goal's name may be opened more than once. -/
inductive Kind where
  | header (goal : Bool)
  | entry
  | other
  deriving DecidableEq, Repr

section

variable {L : Type} (kind : L → Kind)

/-- The entries of the key. `inGoal` tells whether the first lines stand in the goal. -/
def entries : Bool → List L → List L
  | _, [] => []
  | inGoal, l :: lines =>
    match kind l with
    | .header goal => entries goal lines
    | .entry => if inGoal then l :: entries true lines else entries false lines
    | .other => entries inGoal lines

/-- The other lines. -/
def kept : Bool → List L → List L
  | _, [] => []
  | inGoal, l :: lines =>
    match kind l with
    | .header goal => l :: kept goal lines
    | .entry => if inGoal then kept true lines else l :: kept false lines
    | .other => l :: kept inGoal lines

/-- The lines end within the goal, and no entry was seen. -/
def openAfter : Bool → Bool → List L → Bool
  | inGoal, wrote, [] => inGoal && !wrote
  | inGoal, wrote, l :: lines =>
    match kind l with
    | .header goal => openAfter goal (wrote || inGoal) lines
    | .entry => if inGoal then openAfter true true lines else openAfter false wrote lines
    | .other => openAfter inGoal wrote lines

variable (rewrite : L → L) (fresh opening blank : L)

/-- Set the key in the sections that are there. Leaving the first without an entry, put one there. -/
def edit : Bool → Bool → List L → List L
  | inGoal, wrote, [] => if inGoal && !wrote then [fresh] else []
  | inGoal, wrote, l :: lines =>
    match kind l with
    | .header goal => (if inGoal && !wrote then [fresh] else []) ++ l :: edit goal (wrote || inGoal) lines
    | .entry => if inGoal then rewrite l :: edit true true lines else l :: edit false wrote lines
    | .other => l :: edit inGoal wrote lines

/-- Some section is the goal. -/
def HasGoal (lines : List L) : Prop := ∃ l ∈ lines, kind l = .header true

instance (lines : List L) : Decidable (HasGoal kind lines) := inferInstanceAs (Decidable (∃ l ∈ lines, _))

/-- Set the key, behind the other lines when no section is the goal. -/
def setKey (lines : List L) : List L :=
  if HasGoal kind lines then edit kind rewrite fresh false false lines
  else lines ++ ((if lines = [] then [] else [blank]) ++ [opening, fresh])

/-- The only goal section comes last and has no entry. -/
def Open (lines : List L) : Prop :=
  ∃ before header after, lines = before ++ header :: after ∧ kind header = .header true ∧
    (∀ l ∈ before, kind l ≠ .header true) ∧ ∀ l ∈ after, kind l = .other

/-- The first section of the goal has no entry. -/
def lacking : Bool → List L → Bool
  | inGoal, [] => inGoal
  | inGoal, l :: lines =>
    match kind l with
    | .header goal => inGoal || lacking goal lines
    | .entry => !inGoal && lacking false lines
    | .other => lacking inGoal lines

/-- What the written lines are. -/
structure Laws : Prop where
  fresh_entry : kind fresh = .entry
  opening_header : kind opening = .header true
  blank_other : kind blank = .other
  rewrite_entry : ∀ l, kind l = .entry → kind (rewrite l) = .entry

end

variable {L : Type} {kind : L → Kind} {rewrite : L → L} {fresh opening blank : L}

/-! ## Entries and other lines -/

theorem kept_sublist (inGoal : Bool) (lines : List L) : (kept kind inGoal lines).Sublist lines := by
  fun_induction kept kind inGoal lines with
  | case1 => exact .slnil
  | case2 _ l lines goal _ ih => exact ih.cons_cons l
  | case3 l lines _ ih => exact ih.cons l
  | case4 _ l lines _ _ ih => exact ih.cons_cons l
  | case5 _ l lines _ ih => exact ih.cons_cons l

theorem entries_kind {inGoal : Bool} {lines : List L} {l : L} (h : l ∈ entries kind inGoal lines) : kind l = .entry := by
  fun_induction entries kind inGoal lines with
  | case1 => cases h
  | case2 _ a lines goal _ ih => exact ih h
  | case3 a lines ha ih =>
    rcases List.mem_cons.1 h with rfl | h
    · exact ha
    · exact ih h
  | case4 _ a lines _ _ ih => exact ih h
  | case5 _ a lines _ ih => exact ih h

theorem kept_eq_self {inGoal : Bool} {lines : List L} (h : entries kind inGoal lines = []) :
    kept kind inGoal lines = lines := by
  fun_induction entries kind inGoal lines with
  | case1 => rfl
  | case2 inGoal l lines goal hl ih => simp only [kept, hl, ih h]
  | case3 l lines hl ih => cases h
  | case4 inGoal l lines hl hout ih => simp only [kept, hl, if_neg hout, ih h]
  | case5 inGoal l lines hl ih => simp only [kept, hl, ih h]

/-- A line that is an entry to a stricter reader of the same headers is one. -/
theorem entries_of_stricter {strict : L → Kind} (hheader : ∀ l goal, strict l = .header goal ↔ kind l = .header goal)
    (hentry : ∀ l, strict l = .entry → kind l = .entry) {inGoal : Bool} {lines : List L} :
    ∀ l ∈ entries strict inGoal lines, l ∈ entries kind inGoal lines := by
  induction lines generalizing inGoal with
  | nil => exact fun _ h => h
  | cons a lines ih =>
    intro l hin
    cases hs : strict a with
    | header goal =>
      rw [entries, hs] at hin
      rw [entries, (hheader a goal).1 hs]
      exact ih l hin
    | entry =>
      rw [entries, hs] at hin
      rw [entries, hentry a hs]
      cases inGoal with
      | true => exact (List.mem_cons.1 hin).elim (fun h => h ▸ List.mem_cons_self) fun h => List.mem_cons_of_mem _ (ih l h)
      | false => exact ih l hin
    | other =>
      rw [entries, hs] at hin
      rw [entries]
      cases hk : kind a with
      | header goal => rw [(hheader a goal).2 hk] at hs; cases hs
      | entry =>
        cases inGoal with
        | true => exact List.mem_cons_of_mem _ (ih l hin)
        | false => exact ih l hin
      | other => exact ih l hin

/-- Before the goal is opened there are no entries. -/
theorem entries_before {before rest : List L} (h : ∀ l ∈ before, kind l ≠ .header true) :
    entries kind false (before ++ rest) = entries kind false rest := by
  induction before with
  | nil => rfl
  | cons l before ih =>
    rw [List.forall_mem_cons] at h
    rw [List.cons_append, entries]
    cases hl : kind l with
    | header goal =>
      cases goal with
      | true => exact absurd hl h.1
      | false => exact ih h.2
    | entry => exact ih h.2
    | other => exact ih h.2

theorem kept_before {before rest : List L} (h : ∀ l ∈ before, kind l ≠ .header true) :
    kept kind false (before ++ rest) = before ++ kept kind false rest := by
  induction before with
  | nil => rfl
  | cons l before ih =>
    rw [List.forall_mem_cons] at h
    cases hl : kind l with
    | header goal =>
      cases goal with
      | true => exact absurd hl h.1
      | false => simp only [List.cons_append, kept, hl, ih h.2]
    | entry => simp only [List.cons_append, kept, hl, Bool.false_eq_true, if_false, ih h.2]
    | other => simp only [List.cons_append, kept, hl, ih h.2]

theorem edit_before {before rest : List L} (h : ∀ l ∈ before, kind l ≠ .header true) :
    edit kind rewrite fresh false false (before ++ rest) = before ++ edit kind rewrite fresh false false rest := by
  induction before with
  | nil => rfl
  | cons l before ih =>
    rw [List.forall_mem_cons] at h
    cases hl : kind l with
    | header goal =>
      cases goal with
      | true => exact absurd hl h.1
      | false => simpa [edit, hl] using ih h.2
    | entry => simpa [edit, hl] using ih h.2
    | other => simpa [edit, hl] using ih h.2

theorem not_hasGoal {lines : List L} : ¬ HasGoal kind lines ↔ ∀ l ∈ lines, kind l ≠ .header true := by
  simp [HasGoal]

theorem entries_others_append {inGoal : Bool} {lines rest : List L} (h : ∀ l ∈ lines, kind l = .other) :
    entries kind inGoal (lines ++ rest) = entries kind inGoal rest := by
  induction lines with
  | nil => rfl
  | cons l lines ih =>
    rw [List.forall_mem_cons] at h
    rw [List.cons_append, entries, h.1]
    exact ih h.2

theorem entries_others {inGoal : Bool} {lines : List L} (h : ∀ l ∈ lines, kind l = .other) :
    entries kind inGoal lines = [] := by
  have hall := @entries_others_append _ _ inGoal lines [] h
  rwa [List.append_nil] at hall

/-- One more line is at most one more entry. -/
theorem entries_concat (inGoal : Bool) (lines : List L) (x : L) : ∃ tail,
    entries kind inGoal (lines ++ [x]) = entries kind inGoal lines ++ tail ∧ (tail = [] ∨ tail = [x]) := by
  induction lines generalizing inGoal with
  | nil =>
    cases hx : kind x with
    | header goal => exact ⟨[], by simp [entries, hx], .inl rfl⟩
    | entry =>
      cases inGoal with
      | true => exact ⟨[x], by simp [entries, hx], .inr rfl⟩
      | false => exact ⟨[], by simp [entries, hx], .inl rfl⟩
    | other => exact ⟨[], by simp [entries, hx], .inl rfl⟩
  | cons l lines ih =>
    rw [List.cons_append, entries, entries]
    cases kind l with
    | header goal => exact ih goal
    | entry =>
      cases inGoal with
      | true =>
        obtain ⟨tail, heq, htail⟩ := ih true
        exact ⟨tail, congrArg (l :: ·) heq, htail⟩
      | false => exact ih false
    | other => exact ih inGoal

theorem entries_concat_other {inGoal : Bool} {lines : List L} {x : L} (hx : kind x = .other) :
    entries kind inGoal (lines ++ [x]) = entries kind inGoal lines := by
  induction lines generalizing inGoal with
  | nil => exact entries_others (List.forall_mem_singleton.2 hx)
  | cons l lines ih =>
    rw [List.cons_append, entries, entries]
    cases kind l with
    | header goal => exact ih
    | entry =>
      cases inGoal with
      | true => exact congrArg (l :: ·) ih
      | false => exact ih
    | other => exact ih

/-- An open section has no entry. -/
theorem Open.entries {lines : List L} (h : Open kind lines) : entries kind false lines = [] := by
  obtain ⟨before, header, after, rfl, hheader, hbefore, hafter⟩ := h
  rw [entries_before hbefore, Sections.entries, hheader]
  exact entries_others hafter

/-- An open section stays open to a stricter reader. -/
theorem Open.stricter {strict : L → Kind} (hheader : ∀ l goal, strict l = .header goal ↔ kind l = .header goal)
    (hentry : ∀ l, strict l = .entry → kind l = .entry) {lines : List L} (h : Open kind lines) : Open strict lines := by
  obtain ⟨before, header, after, rfl, hgoal, hbefore, hafter⟩ := h
  refine ⟨before, header, after, rfl, (hheader header true).2 hgoal, fun l hl hs => hbefore l hl ((hheader l true).1 hs),
    fun l hl => ?_⟩
  cases hs : strict l with
  | header goal => exact absurd ((hheader l goal).1 hs) (by rw [hafter l hl]; nofun)
  | entry => exact absurd (hentry l hs) (by rw [hafter l hl]; nofun)
  | other => rfl

/-- The last line of an open section. -/
theorem Open.last {lines : List L} {last : L} (h : Open kind (lines ++ [last])) :
    kind last = .header true ∨ kind last = .other := by
  obtain ⟨before, header, after, heq, hheader, hbefore, hafter⟩ := h
  rcases List.eq_nil_or_concat after with rfl | ⟨after, a, rfl⟩
  · obtain ⟨-, hsame⟩ := List.append_inj' heq rfl
    exact .inl (List.singleton_inj.1 hsame ▸ hheader)
  · rw [List.concat_eq_append] at heq hafter
    rw [← List.cons_append, ← List.append_assoc] at heq
    obtain ⟨-, hsame⟩ := List.append_inj' heq rfl
    exact .inr (List.singleton_inj.1 hsame ▸ hafter a (by simp))

/-- An entry in the place of an open section's last line is the only one. -/
theorem Open.entries_concat {lines : List L} {last x : L} (h : Open kind (lines ++ [last])) (hlast : kind last = .other)
    (hx : kind x = .entry) : Sections.entries kind false (lines ++ [x]) = [x] := by
  obtain ⟨before, header, after, heq, hheader, hbefore, hafter⟩ := h
  rcases List.eq_nil_or_concat after with rfl | ⟨after, a, rfl⟩
  · obtain ⟨-, hsame⟩ := List.append_inj' heq rfl
    obtain rfl := List.singleton_inj.1 hsame
    rw [hlast] at hheader
    cases hheader
  · rw [List.concat_eq_append] at heq hafter
    rw [← List.cons_append, ← List.append_assoc] at heq
    obtain ⟨rfl, -⟩ := List.append_inj' heq rfl
    have hothers : ∀ l ∈ after, kind l = .other := fun l hl => hafter l (List.mem_append_left _ hl)
    have hend : Sections.entries kind true (after ++ [x]) = [x] := by
      rw [entries_others_append hothers]
      simp [Sections.entries, hx]
    rw [List.append_assoc, List.cons_append, entries_before hbefore, Sections.entries, hheader]
    exact hend

theorem openAfter_wrote {inGoal : Bool} (lines : List L) : openAfter kind inGoal true lines = false := by
  induction lines generalizing inGoal with
  | nil => rw [openAfter, Bool.not_true, Bool.and_false]
  | cons l lines ih =>
    rw [openAfter]
    cases kind l with
    | header goal => exact ih
    | entry => cases inGoal <;> exact ih
    | other => exact ih

theorem openAfter_inside (lines : List L) : openAfter kind true false lines = true ↔ ∀ l ∈ lines, kind l = .other := by
  induction lines with
  | nil => exact ⟨nofun, fun _ => rfl⟩
  | cons l lines ih =>
    rw [openAfter, List.forall_mem_cons]
    cases hl : kind l with
    | header goal => simp [openAfter_wrote]
    | entry => simp [openAfter_wrote]
    | other => simpa using ih

theorem openAfter_iff (lines : List L) : openAfter kind false false lines = true ↔ Open kind lines := by
  have hcons : ∀ l lines, kind l ≠ .header true → (Open kind (l :: lines) ↔ Open kind lines) := by
    intro l lines hl
    constructor
    · rintro ⟨before, header, after, heq, hheader, hbefore, hafter⟩
      cases before with
      | nil =>
        obtain ⟨rfl, -⟩ := List.cons.inj heq
        exact absurd hheader hl
      | cons b before =>
        obtain ⟨rfl, rfl⟩ := List.cons.inj heq
        exact ⟨before, header, after, rfl, hheader, (List.forall_mem_cons.1 hbefore).2, hafter⟩
    · rintro ⟨before, header, after, rfl, hheader, hbefore, hafter⟩
      exact ⟨l :: before, header, after, rfl, hheader, List.forall_mem_cons.2 ⟨hl, hbefore⟩, hafter⟩
  induction lines with
  | nil => exact ⟨nofun, fun ⟨before, _, _, heq, _⟩ => by cases before <;> cases heq⟩
  | cons l lines ih =>
    rw [openAfter]
    cases hl : kind l with
    | header goal =>
      cases goal with
      | true =>
        show openAfter kind true false lines = true ↔ _
        rw [openAfter_inside]
        constructor
        · exact fun hafter => ⟨[], l, lines, rfl, hl, nofun, hafter⟩
        · rintro ⟨before, header, after, heq, hheader, hbefore, hafter⟩
          cases before with
          | nil =>
            obtain ⟨-, rfl⟩ := List.cons.inj heq
            exact hafter
          | cons b before =>
            obtain ⟨rfl, -⟩ := List.cons.inj heq
            exact absurd hl (hbefore l List.mem_cons_self)
      | false => rw [hcons l lines (by rw [hl]; decide)]; exact ih
    | entry => rw [hcons l lines (by rw [hl]; decide)]; exact ih
    | other => rw [hcons l lines (by rw [hl]; decide)]; exact ih

/-! ## Setting the key -/

theorem edit_others {wrote : Bool} {lines : List L} (h : ∀ l ∈ lines, kind l = .other) :
    edit kind rewrite fresh true wrote lines = lines ++ if wrote then [] else [fresh] := by
  induction lines with
  | nil => cases wrote <;> rfl
  | cons l lines ih =>
    rw [List.forall_mem_cons] at h
    simp only [edit, h.1, ih h.2, List.cons_append]

/-- In an open section the entry comes last. -/
theorem Open.edit {lines : List L} (h : Open kind lines) :
    edit kind rewrite fresh false false lines = lines ++ [fresh] := by
  obtain ⟨before, header, after, rfl, hheader, hbefore, hafter⟩ := h
  rw [edit_before hbefore]
  simp [Sections.edit, hheader, edit_others hafter]

theorem Open.hasGoal {lines : List L} (h : Open kind lines) : HasGoal kind lines := by
  obtain ⟨before, header, after, rfl, hheader, -, -⟩ := h
  exact ⟨header, List.mem_append_right _ List.mem_cons_self, hheader⟩

/-- Without the goal nothing is edited. -/
theorem edit_no_goal {lines : List L} (h : ¬ HasGoal kind lines) : edit kind rewrite fresh false false lines = lines := by
  have hbefore := @edit_before _ _ rewrite fresh lines [] (not_hasGoal.1 h)
  rw [List.append_nil] at hbefore
  rw [hbefore, edit, Bool.false_and, if_neg Bool.false_ne_true, List.append_nil]

theorem entries_no_goal {lines : List L} (h : ¬ HasGoal kind lines) : entries kind false lines = [] := by
  have hbefore := @entries_before _ _ lines [] (not_hasGoal.1 h)
  rwa [List.append_nil] at hbefore

theorem hasGoal_edit {inGoal wrote : Bool} {lines : List L} (h : HasGoal kind lines) :
    HasGoal kind (edit kind rewrite fresh inGoal wrote lines) := by
  obtain ⟨x, hx, hgoal⟩ := h
  refine ⟨x, ?_, hgoal⟩
  induction lines generalizing inGoal wrote with
  | nil => cases hx
  | cons l lines ih =>
    rcases List.mem_cons.1 hx with rfl | hx
    · simp [edit, hgoal]
    · cases hl : kind l with
      | header goal => simp [edit, hl, ih hx]
      | entry => cases inGoal <;> simp [edit, hl, ih hx]
      | other => simp [edit, hl, ih hx]

/-- A line that opens no section is an entry, or the entries stand behind it. -/
theorem mem_entries_cons {a l : L} {inGoal : Bool} {rest : List L} (ha : ∀ goal, kind a ≠ .header goal)
    (h : l ∈ entries kind inGoal (a :: rest)) : l = a ∨ l ∈ entries kind inGoal rest := by
  rw [entries] at h
  cases hk : kind a with
  | header goal => exact absurd hk (ha goal)
  | entry =>
    rw [hk] at h
    cases inGoal with
    | true => exact List.mem_cons.1 h
    | false => exact .inr h
  | other =>
    rw [hk] at h
    exact .inr h

/-- Whatever the written lines are to the reader, if they open no section its entries are among them. -/
theorem entries_edit_written (hfresh : ∀ goal, kind fresh ≠ .header goal)
    (hrewrite : ∀ l, kind l = .entry → ∀ goal, kind (rewrite l) ≠ .header goal) {inGoal wrote : Bool} {lines : List L} :
    ∀ l ∈ entries kind inGoal (edit kind rewrite fresh inGoal wrote lines), l = fresh ∨ ∃ a, kind a = .entry ∧ l = rewrite a := by
  induction lines generalizing inGoal wrote with
  | nil =>
    intro l hin
    rw [edit] at hin
    split at hin
    · exact (mem_entries_cons hfresh hin).elim .inl fun h => absurd h List.not_mem_nil
    · cases hin
  | cons a lines ih =>
    intro l hin
    rw [edit] at hin
    cases hk : kind a with
    | header goal =>
      rw [hk] at hin
      have hin : l = fresh ∨ l ∈ entries kind inGoal (a :: edit kind rewrite fresh goal (wrote || inGoal) lines) := by
        dsimp only at hin
        split at hin
        · exact mem_entries_cons hfresh hin
        · exact .inr hin
      refine hin.elim .inl fun hin => ?_
      rw [entries, hk] at hin
      exact ih l hin
    | entry =>
      rw [hk] at hin
      cases inGoal with
      | true =>
        refine (mem_entries_cons (hrewrite a hk) hin).elim (fun h => .inr ⟨a, hk, h⟩) (ih l)
      | false =>
        rw [if_neg Bool.false_ne_true, entries, hk] at hin
        exact ih l hin
    | other =>
      rw [hk] at hin
      dsimp only at hin
      rw [entries, hk] at hin
      exact ih l hin

theorem entries_setKey_written (hopening : kind opening = .header true) (hblank : kind blank = .other)
    (hfresh : ∀ goal, kind fresh ≠ .header goal) (hrewrite : ∀ l, kind l = .entry → ∀ goal, kind (rewrite l) ≠ .header goal)
    {lines : List L} : ∀ l ∈ entries kind false (setKey kind rewrite fresh opening blank lines),
      l = fresh ∨ ∃ a, kind a = .entry ∧ l = rewrite a := by
  intro l hin
  unfold setKey at hin
  split at hin
  · exact entries_edit_written hfresh hrewrite l hin
  · next hgoal =>
    rw [entries_before (not_hasGoal.1 hgoal)] at hin
    have hadded : ∀ l ∈ entries kind false ((if lines = [] then [] else [blank]) ++ [opening, fresh]), l = fresh := by
      cases hk : kind fresh with
      | header goal => exact absurd hk (hfresh goal)
      | entry => split <;> simp [entries, hopening, hblank, hk]
      | other => split <;> simp [entries, hopening, hblank, hk]
    exact .inl (hadded l hin)

section

variable {another : L → Kind} (hheader : ∀ l goal, another l = .header goal ↔ kind l = .header goal)
  (hentry : ∀ l, kind l = .entry → another l = .other) (hfresh : another fresh = .other)
  (hrewrite : ∀ l, kind l = .entry → another (rewrite l) = .other)

include hheader hentry hfresh hrewrite

/-- The entries of another key of the section stay as they are. -/
theorem entries_edit_another (inGoal wrote : Bool) (lines : List L) :
    entries another inGoal (edit kind rewrite fresh inGoal wrote lines) = entries another inGoal lines := by
  induction lines generalizing inGoal wrote with
  | nil =>
    rw [edit]
    split
    · exact entries_others (List.forall_mem_singleton.2 hfresh)
    · rfl
  | cons l lines ih =>
    cases hl : kind l with
    | header goal =>
      have hgoal := (hheader l goal).2 hl
      simp only [edit, hl]
      split
      · simp only [List.singleton_append, entries, hfresh, hgoal, ih]
      · simp only [List.nil_append, entries, hgoal, ih]
    | entry =>
      have hother := hentry l hl
      cases inGoal with
      | true => simp only [edit, hl, if_true, entries, hrewrite l hl, hother, ih]
      | false => simp only [edit, hl, Bool.false_eq_true, if_false, entries, hother, ih]
    | other =>
      cases hother : another l with
      | header goal =>
        rw [(hheader l goal).1 hother] at hl
        cases hl
      | entry => cases inGoal <;> simp [edit, hl, entries, hother, ih]
      | other => simp only [edit, hl, entries, hother, ih]

theorem entries_setKey_another (hopening : kind opening = .header true) (hblank : another blank = .other) (lines : List L) :
    entries another false (setKey kind rewrite fresh opening blank lines) = entries another false lines := by
  unfold setKey
  split
  · exact entries_edit_another hheader hentry hfresh hrewrite false false lines
  · next hgoal =>
    have hnone : ∀ l ∈ lines, another l ≠ .header true :=
      fun l hl h => not_hasGoal.1 hgoal l hl ((hheader l true).1 h)
    have hadded : entries another false ((if lines = [] then [] else [blank]) ++ [opening, fresh]) = [] := by
      have hgoal' := (hheader opening true).2 hopening
      split <;> simp [entries, hblank, hgoal', hfresh]
    have hlines := @entries_before _ _ lines [] hnone
    rw [List.append_nil] at hlines
    rw [entries_before hnone, hadded, hlines]
    rfl

end

/-! ## The weight of the lines -/

/-- The entries weigh what their rewritings do, and a fresh one counts where it is put. -/
theorem sum_edit (weight : L → Nat) (inGoal wrote : Bool) (lines : List L) :
    ((edit kind rewrite fresh inGoal wrote lines).map weight).sum =
      ((kept kind inGoal lines).map weight).sum + ((entries kind inGoal lines).map (weight ∘ rewrite)).sum +
        if !wrote && lacking kind inGoal lines then weight fresh else 0 := by
  -- the fresh entry is put once: leaving the goal sets the flag, and so does an entry
  induction lines generalizing inGoal wrote with
  | nil => cases inGoal <;> cases wrote <;> simp [edit, kept, entries, lacking]
  | cons l lines ih =>
    rw [edit, kept, entries, lacking]
    cases kind l with
    | header goal =>
      have hrest := ih goal (wrote || inGoal)
      cases inGoal <;> cases wrote <;> simp_all <;> omega
    | entry =>
      have hin := ih true true
      have hout := ih false wrote
      cases inGoal <;> simp_all <;> omega
    | other =>
      have hrest := ih inGoal wrote
      simp_all
      omega

/-- Behind lines without the goal it is put with its header. -/
theorem sum_setKey (weight : L → Nat) (lines : List L) :
    ((setKey kind rewrite fresh opening blank lines).map weight).sum =
      ((kept kind false lines).map weight).sum + ((entries kind false lines).map (weight ∘ rewrite)).sum +
        if HasGoal kind lines then if lacking kind false lines then weight fresh else 0
        else (if lines = [] then 0 else weight blank) + weight opening + weight fresh := by
  unfold setKey
  split
  · exact sum_edit weight false false lines
  · next hgoal =>
    rw [kept_eq_self (entries_no_goal hgoal), entries_no_goal hgoal]
    by_cases hnil : lines = []
    · simp [hnil]
    · simp [hnil, Nat.add_assoc]

/-- What holds of the lines and of what is written holds afterwards. -/
theorem forall_edit {P : L → Prop} (hfresh : P fresh) (hrewrite : ∀ l, P l → P (rewrite l)) {inGoal wrote : Bool}
    {lines : List L} (h : ∀ l ∈ lines, P l) : ∀ l ∈ edit kind rewrite fresh inGoal wrote lines, P l := by
  fun_induction edit kind rewrite fresh inGoal wrote lines with
  | case1 => exact List.forall_mem_singleton.2 hfresh
  | case2 => exact h
  | case3 inGoal wrote a lines goal _ ih =>
    rw [List.forall_mem_cons] at h
    refine List.forall_mem_append.2 ⟨?_, List.forall_mem_cons.2 ⟨h.1, ih h.2⟩⟩
    split
    · exact List.forall_mem_singleton.2 hfresh
    · nofun
  | case4 wrote a lines _ ih =>
    rw [List.forall_mem_cons] at h ⊢
    exact ⟨hrewrite a h.1, ih h.2⟩
  | case5 inGoal wrote a lines _ _ ih =>
    rw [List.forall_mem_cons] at h ⊢
    exact ⟨h.1, ih h.2⟩
  | case6 inGoal wrote a lines _ ih =>
    rw [List.forall_mem_cons] at h ⊢
    exact ⟨h.1, ih h.2⟩

theorem forall_setKey {P : L → Prop} (hfresh : P fresh) (hrewrite : ∀ l, P l → P (rewrite l)) (hopening : P opening)
    (hblank : P blank) {lines : List L} (h : ∀ l ∈ lines, P l) :
    ∀ l ∈ setKey kind rewrite fresh opening blank lines, P l := by
  unfold setKey
  split
  · exact forall_edit hfresh hrewrite h
  · refine List.forall_mem_append.2 ⟨h, List.forall_mem_append.2 ⟨?_, ?_⟩⟩
    · split
      · nofun
      · exact List.forall_mem_singleton.2 hblank
    · exact List.forall_mem_cons.2 ⟨hopening, List.forall_mem_singleton.2 hfresh⟩

section

variable (laws : Laws kind rewrite fresh opening blank)

include laws

theorem kept_edit (inGoal wrote : Bool) (lines : List L) :
    kept kind inGoal (edit kind rewrite fresh inGoal wrote lines) = kept kind inGoal lines := by
  have hfresh : ∀ rest, kept kind true (fresh :: rest) = kept kind true rest := fun rest => by
    simp only [kept, laws.fresh_entry, if_true]
  induction lines generalizing inGoal wrote with
  | nil =>
    rw [edit]
    split
    · next hopen =>
      rw [(Bool.and_eq_true_iff.1 hopen).1, hfresh]
    · rfl
  | cons l lines ih =>
    cases hl : kind l with
    | header goal =>
      simp only [edit, hl]
      split
      · next hopen =>
        rw [(Bool.and_eq_true_iff.1 hopen).1, List.singleton_append, hfresh]
        simp only [kept, hl, ih]
      · simp only [List.nil_append, kept, hl, ih]
    | entry =>
      cases inGoal with
      | true => simp only [edit, hl, if_true, kept, laws.rewrite_entry l hl, ih]
      | false => simp only [edit, hl, Bool.false_eq_true, if_false, kept, ih]
    | other => simp only [edit, hl, kept, ih]

/-- The other lines stay as they are; a new section comes behind them. -/
theorem kept_setKey (lines : List L) :
    kept kind false lines <+: kept kind false (setKey kind rewrite fresh opening blank lines) := by
  unfold setKey
  split
  · exact (kept_edit laws false false lines).symm ▸ List.prefix_refl _
  · next hgoal =>
    rw [kept_eq_self (entries_no_goal hgoal), kept_before (not_hasGoal.1 hgoal)]
    exact List.prefix_append ..

/-- Once the key is written its further entries are rewritten. -/
theorem entries_edit_wrote (inGoal : Bool) (lines : List L) :
    entries kind inGoal (edit kind rewrite fresh inGoal true lines) = (entries kind inGoal lines).map rewrite := by
  induction lines generalizing inGoal with
  | nil =>
    rw [edit, Bool.not_true, Bool.and_false, if_neg Bool.false_ne_true]
    rfl
  | cons l lines ih =>
    cases hl : kind l with
    | header goal => simp [edit, entries, hl, ih]
    | entry =>
      cases inGoal with
      | true => simp [edit, entries, hl, laws.rewrite_entry l hl, ih]
      | false => simp [edit, entries, hl, ih]
    | other => simp [edit, entries, hl, ih]

/-- Within the goal, or before it, the entries are rewritten; a fresh one may stand before them. -/
theorem entries_edit {inGoal : Bool} {lines : List L} (h : inGoal = true ∨ HasGoal kind lines) :
    entries kind inGoal (edit kind rewrite fresh inGoal false lines) = fresh :: (entries kind inGoal lines).map rewrite ∨
      entries kind inGoal (edit kind rewrite fresh inGoal false lines) = (entries kind inGoal lines).map rewrite ∧
        entries kind inGoal lines ≠ [] := by
  have hrest : ∀ {l : L} {lines : List L}, kind l ≠ .header true → HasGoal kind (l :: lines) → HasGoal kind lines := by
    rintro l lines hl ⟨x, hx, hgoal⟩
    rcases List.mem_cons.1 hx with rfl | hx
    · exact absurd hgoal hl
    · exact ⟨x, hx, hgoal⟩
  induction lines generalizing inGoal with
  | nil =>
    rcases h with rfl | ⟨x, hx, -⟩
    · left
      simp [edit, entries, laws.fresh_entry]
    · cases hx
  | cons l lines ih =>
    cases hl : kind l with
    | header goal =>
      cases inGoal with
      | true =>
        left
        simp [edit, entries, hl, laws.fresh_entry, entries_edit_wrote laws]
      | false =>
        have hnext : goal = true ∨ HasGoal kind lines := by
          cases goal with
          | true => exact .inl rfl
          | false => exact .inr (hrest (by rw [hl]; decide) (h.resolve_left Bool.false_ne_true))
        simpa [edit, entries, hl] using ih hnext
    | entry =>
      cases inGoal with
      | true =>
        right
        simp [edit, entries, hl, laws.rewrite_entry l hl, entries_edit_wrote laws]
      | false => simpa [edit, entries, hl] using ih (.inr (hrest (by rw [hl]; decide) (h.resolve_left Bool.false_ne_true)))
    | other =>
      have hnext : inGoal = true ∨ HasGoal kind lines := h.imp_right (hrest (by rw [hl]; decide))
      simpa [edit, entries, hl] using ih hnext

/-- The last entry is the old last one rewritten, or fresh. -/
theorem last_setKey (lines : List L) :
    (entries kind false (setKey kind rewrite fresh opening blank lines)).getLast? =
      some (((entries kind false lines).getLast?.map rewrite).getD fresh) := by
  unfold setKey
  split
  · next hgoal =>
    rcases entries_edit laws (.inr hgoal) with h | ⟨h, hne⟩
    · rw [h, List.getLast?_cons, List.getLast?_map]
    · rw [h, List.getLast?_map, List.getLast?_eq_some_getLast hne]
      rfl
  · next hgoal =>
    rw [entries_before (not_hasGoal.1 hgoal), entries_no_goal hgoal]
    have hadded : entries kind false ((if lines = [] then [] else [blank]) ++ [opening, fresh]) = [fresh] := by
      split <;> simp [entries, laws.blank_other, laws.opening_header, laws.fresh_entry]
    rw [hadded]
    rfl

/-- Setting the key within its sections again changes nothing. -/
theorem edit_edit (hfresh : rewrite fresh = fresh) (hrewrite : ∀ l, kind l = .entry → rewrite (rewrite l) = rewrite l)
    (inGoal wrote : Bool) (lines : List L) :
    edit kind rewrite fresh inGoal wrote (edit kind rewrite fresh inGoal wrote lines) =
      edit kind rewrite fresh inGoal wrote lines := by
  -- a fresh entry is met within the goal, before any other
  have hfirst : ∀ wrote rest, edit kind rewrite fresh true wrote (fresh :: rest) = fresh :: edit kind rewrite fresh true true rest :=
    fun wrote rest => by simp only [edit, laws.fresh_entry, if_true, hfresh]
  induction lines generalizing inGoal wrote with
  | nil =>
    rw [edit]
    split
    · next hopen =>
      rw [(Bool.and_eq_true_iff.1 hopen).1, hfirst]
      rfl
    · next hshut => rw [edit, if_neg hshut]
  | cons l lines ih =>
    cases hl : kind l with
    | header goal =>
      simp only [edit, hl]
      split
      · next hopen =>
        rw [(Bool.and_eq_true_iff.1 hopen).1, List.singleton_append, hfirst]
        simp only [edit, hl, Bool.not_true, Bool.and_false, Bool.false_eq_true, if_false, List.nil_append, Bool.or_true, ih]
      · next hshut => simp only [List.nil_append, edit, hl, if_neg hshut, ih]
    | entry =>
      cases inGoal with
      | true => simp only [edit, hl, if_true, laws.rewrite_entry l hl, hrewrite l hl, ih]
      | false => simp only [edit, hl, Bool.false_eq_true, if_false, ih]
    | other => simp only [edit, hl, ih]

theorem setKey_setKey (hfresh : rewrite fresh = fresh) (hrewrite : ∀ l, kind l = .entry → rewrite (rewrite l) = rewrite l)
    (lines : List L) : setKey kind rewrite fresh opening blank (setKey kind rewrite fresh opening blank lines) =
      setKey kind rewrite fresh opening blank lines := by
  by_cases hgoal : HasGoal kind lines
  · have hset : setKey kind rewrite fresh opening blank lines = edit kind rewrite fresh false false lines := if_pos hgoal
    rw [hset, setKey, if_pos (hasGoal_edit hgoal), edit_edit laws hfresh hrewrite]
  · have hset : setKey kind rewrite fresh opening blank lines =
        lines ++ ((if lines = [] then [] else [blank]) ++ [opening, fresh]) := if_neg hgoal
    have hopened : HasGoal kind (lines ++ ((if lines = [] then [] else [blank]) ++ [opening, fresh])) :=
      ⟨opening, by simp, laws.opening_header⟩
    have hadded : edit kind rewrite fresh false false ((if lines = [] then [] else [blank]) ++ [opening, fresh]) =
        (if lines = [] then [] else [blank]) ++ [opening, fresh] := by
      split <;> simp [edit, laws.blank_other, laws.opening_header, laws.fresh_entry, hfresh]
    rw [hset, setKey, if_pos hopened, edit_before (not_hasGoal.1 hgoal), hadded]

end

end AtriumPortal.Lib.Sections
