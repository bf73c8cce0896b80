import AtriumPortal.Lib.Table
/-!
# Entries laid over a map of maps

A map of maps is filled from a list of entries (name, key, value), and a second list is laid
over it. `Change` says what a difference may have at one key; `agree_putAll` compares whole
maps from what the lists have at each key, and `follows_putAll` a copy that is only told
differences.
-/
open AtriumPortal.Lib.Table

namespace AtriumPortal.Lib.Overlay

variable {N K V : Type} [DecidableEq N] [DecidableEq K]

abbrev Nested (N K V : Type) [DecidableEq N] : Type := Map N (Map K V)

/-- Insert an entry, in a map of its own if its name is new. -/
def put (m : Nested N K V) (e : N × K × V) : Nested N K V :=
  m.insert e.1 (((m.lookup e.1).getD ∅).insert e.2.1 e.2.2)

def putAll (m : Nested N K V) (entries : List (N × K × V)) : Nested N K V := entries.foldl put m

def find (m : Nested N K V) (n : N) (k : K) : Option V := (m.lookup n).bind (·.lookup k)

/-- The first entry with a name and a key. -/
def valueAt (entries : List (N × K × V)) (n : N) (k : K) : Option V :=
  entries.findSome? fun e => if e.1 = n ∧ e.2.1 = k then some e.2.2 else none

/-- The name and the key of an entry. -/
def label (e : N × K × V) : N × K := (e.1, e.2.1)

/-- The same names and keys, with values in relation. -/
def Agree (r : V → V → Prop) (m m' : Nested N K V) : Prop :=
  ∀ n, Option.Rel (fun a b => ∀ k, Option.Rel r (a.lookup k) (b.lookup k)) (m.lookup n) (m'.lookup n)

variable {r : V → V → Prop} {m m' : Nested N K V} {entries rest : List (N × K × V)} {n : N} {k : K} {v : V}

/-! ## What a list has at a key -/

@[simp] theorem valueAt_nil : valueAt ([] : List (N × K × V)) n k = none := rfl

@[simp] theorem valueAt_cons (e : N × K × V) :
    valueAt (e :: entries) n k = if e.1 = n ∧ e.2.1 = k then some e.2.2 else valueAt entries n k := by
  unfold valueAt
  rw [List.findSome?_cons]
  split <;> simp_all

@[simp] theorem valueAt_append : valueAt (entries ++ rest) n k = (valueAt entries n k).or (valueAt rest n k) :=
  List.findSome?_append

theorem valueAt_eq_none : valueAt entries n k = none ↔ ∀ v, (n, k, v) ∉ entries := by
  simp only [valueAt, List.findSome?_eq_none_iff, ite_eq_right_iff, reduceCtorEq, imp_false, not_and, Prod.forall]
  constructor
  · exact fun h v hin => h n k v hin rfl rfl
  · rintro h n' k' v hin rfl rfl
    exact h v hin

theorem valueAt_isSome : (valueAt entries n k).isSome = true ↔ (n, k) ∈ entries.map label := by
  rw [← not_iff_not, Bool.not_eq_true, Option.isSome_eq_false_iff, Option.isNone_iff_eq_none, valueAt_eq_none,
    List.mem_map]
  constructor
  · rintro h ⟨⟨n', k', v⟩, hin, ⟨⟩⟩
    exact h v hin
  · exact fun h v hin => h ⟨_, hin, rfl⟩

/-- With one entry at most for each key, the first is the only one. -/
theorem mem_iff_valueAt (hnodup : (entries.map label).Nodup) : (n, k, v) ∈ entries ↔ valueAt entries n k = some v := by
  induction entries with
  | nil => simp
  | cons e entries ih =>
    obtain ⟨n', k', v'⟩ := e
    rw [List.map_cons, List.nodup_cons] at hnodup
    rw [List.mem_cons, valueAt_cons, ih hnodup.2]
    by_cases hkey : n' = n ∧ k' = k
    · obtain ⟨rfl, rfl⟩ := hkey
      have hnone : valueAt entries n' k' = none :=
        valueAt_eq_none.2 fun w hin => hnodup.1 (List.mem_map.2 ⟨_, hin, rfl⟩)
      simp [hnone, eq_comm]
    · rw [if_neg hkey, or_iff_right]
      rintro ⟨⟩
      exact hkey ⟨rfl, rfl⟩

theorem valueAt_filter (p : N → Bool) :
    valueAt (entries.filter fun e => p e.1) n k = if p n then valueAt entries n k else none := by
  induction entries with
  | nil => simp
  | cons e entries ih =>
    rw [List.filter_cons]
    by_cases hname : e.1 = n
    · subst hname
      by_cases hp : p e.1 = true <;> simp_all
    · by_cases hp : p e.1 = true <;> simp_all

/-! ## What a map has at a key -/

theorem find_put (e : N × K × V) : find (put m e) n k = if e.1 = n ∧ e.2.1 = k then some e.2.2 else find m n k := by
  obtain ⟨n', k', v⟩ := e
  unfold find put
  by_cases hn : n' = n
  · subst hn
    rw [AList.lookup_insert, Option.bind_some]
    by_cases hk : k' = k
    · subst hk
      simp
    · rw [AList.lookup_insert_ne (Ne.symm hk), if_neg fun h => hk h.2]
      cases m.lookup n' with
      | none => rfl
      | some inner => rfl
  · rw [AList.lookup_insert_ne (Ne.symm hn), if_neg fun h => hn h.1]

theorem lookup_put_isSome (e : N × K × V) :
    ((put m e).lookup n).isSome = true ↔ e.1 = n ∨ (m.lookup n).isSome = true := by
  unfold put
  by_cases hn : e.1 = n
  · simp [hn]
  · simp [AList.lookup_insert_ne (Ne.symm hn), hn]

/-- The entries are laid over the map. -/
theorem find_putAll (hnodup : (entries.map label).Nodup) :
    find (putAll m entries) n k = (valueAt entries n k).or (find m n k) := by
  induction entries generalizing m with
  | nil => rfl
  | cons e entries ih =>
    rw [List.map_cons, List.nodup_cons] at hnodup
    change find (putAll (put m e) entries) n k = _
    rw [ih hnodup.2, find_put, valueAt_cons]
    split
    · next hkey =>
      obtain ⟨rfl, rfl⟩ := hkey
      have hnone : valueAt entries e.1 e.2.1 = none :=
        valueAt_eq_none.2 fun w hin => hnodup.1 (List.mem_map.2 ⟨_, hin, rfl⟩)
      rw [hnone]
      rfl
    · rfl

theorem lookup_putAll_isSome :
    ((putAll m entries).lookup n).isSome = true ↔
      (∃ k, (valueAt entries n k).isSome = true) ∨ (m.lookup n).isSome = true := by
  induction entries generalizing m with
  | nil => simp [putAll]
  | cons e entries ih =>
    change ((putAll (put m e) entries).lookup n).isSome = true ↔ _
    rw [ih, lookup_put_isSome]
    by_cases hn : e.1 = n
    · have hhere : ∃ k, (valueAt (e :: entries) n k).isSome = true := ⟨e.2.1, by simp [hn]⟩
      simp only [hn, hhere, true_or, or_true]
    · simp [hn]

theorem agree_of_find (hname : ∀ n, (m.lookup n).isSome = true ↔ (m'.lookup n).isSome = true)
    (hfind : ∀ n k, Option.Rel r (find m n k) (find m' n k)) : Agree r m m' := by
  intro n
  have hkeys := hfind n
  have hsome := hname n
  unfold find at hkeys
  cases hm : m.lookup n with
  | none =>
    cases hm' : m'.lookup n with
    | none => exact .none
    | some inner => simp [hm, hm'] at hsome
  | some inner =>
    cases hm' : m'.lookup n with
    | none => simp [hm, hm'] at hsome
    | some inner' =>
      rw [hm, hm'] at hkeys
      exact .some hkeys

theorem rel_isSome {o o' : Option V} (h : Option.Rel r o o') : o.isSome = o'.isSome := by
  cases h with
  | some _ => rfl
  | none => rfl

/-! ## Differences -/

/-- What a difference may have where the values before and after are these: `unset` stands for a value
that is gone. -/
inductive Change (r : V → V → Prop) (unset : V) : Option V → Option V → Option V → Prop
  | kept {before after} : r before after → Change r unset none (some before) (some after)
  | changed {before after} : ¬ r before after → r after after → Change r unset (some after) (some before) (some after)
  | appeared {after} : r after after → Change r unset (some after) none (some after)
  | removed {before} : Change r unset (some unset) (some before) none
  | absent : Change r unset none none none

variable {unset : V}

/-- A difference has a key exactly where its value is another one. -/
theorem Change.isSome_iff {diff before after : Option V} (h : Change r unset diff before after) :
    diff.isSome = true ↔ ¬ Option.Rel r before after := by
  cases h with
  | kept hsame => exact iff_of_false nofun (not_not.2 (.some hsame))
  | changed hother _ =>
    refine iff_of_true rfl fun hrel => ?_
    cases hrel with
    | some hsame => exact hother hsame
  | appeared | removed => exact iff_of_true rfl nofun
  | absent => exact iff_of_false nofun (not_not.2 .none)

/-- Laid over the value before, it gives the value after, or stands for a value that is gone. -/
theorem Change.overlaid {diff before after : Option V} (h : Change r unset diff before after) (hunset : r unset unset) :
    Option.Rel r (diff.or before) (after.or (if before.isSome then some unset else none)) := by
  cases h with
  | kept hsame => exact .some hsame
  | changed _ hself => exact .some hself
  | appeared hself => exact .some hself
  | removed => exact .some hunset
  | absent => exact .none

theorem agree_putAll {before diff after : List (N × K × V)} (hbefore : (before.map label).Nodup)
    (hdiff : (diff.map label).Nodup) (hafter : (after.map label).Nodup)
    (h : ∀ n k, Option.Rel r ((valueAt diff n k).or (valueAt before n k)) (valueAt after n k)) :
    Agree r (putAll (putAll ∅ before) diff) (putAll ∅ after) := by
  have hnone : ∀ n k, find (∅ : Nested N K V) n k = none := fun _ _ => rfl
  refine agree_of_find (fun n => ?_) fun n k => ?_
  · have hkeys : ∀ k, (valueAt after n k).isSome = true ↔
        (valueAt diff n k).isSome = true ∨ (valueAt before n k).isSome = true := by
      intro k
      rw [← rel_isSome (h n k), Option.isSome_or, Bool.or_eq_true]
    simp only [lookup_putAll_isSome, hkeys, exists_or, AList.lookup_empty, Option.isSome_none, Bool.false_eq_true,
      or_false]
  · rw [find_putAll hdiff, find_putAll hbefore, find_putAll hafter, hnone, Option.or_none, Option.or_none]
    exact h n k

/-- A copy that was only told differences: at every key it has the value, or the one that stands for
none. -/
def Follows (r : V → V → Prop) (unset : V) (m : Nested N K V) (value : N → K → Option V) : Prop :=
  ∀ n k, Option.Rel r (find m n k) (value n k) ∨ find m n k = some unset ∧ value n k = none

/-- It follows on when it is told the next difference. -/
theorem Follows.putAll {before after : N → K → Option V} {diff : List (N × K × V)}
    (h : Follows r unset m before) (htrans : ∀ {a b c}, r a b → r b c → r a c) (hdiff : (diff.map label).Nodup)
    (hchange : ∀ n k, Change r unset (valueAt diff n k) (before n k) (after n k)) :
    Follows r unset (putAll m diff) after := by
  intro n k
  have hheld := h n k
  have hat := hchange n k
  rw [find_putAll hdiff]
  generalize valueAt diff n k = d, before n k = b, after n k = a, find m n k = held at *
  cases hat with
  | kept hsame =>
    rcases hheld with hheld | ⟨-, hnone⟩
    · cases hheld with
      | some hheld => exact .inl (.some (htrans hheld hsame))
    · cases hnone
  | changed _ hself => exact .inl (.some hself)
  | appeared hself => exact .inl (.some hself)
  | removed => exact .inr ⟨rfl, rfl⟩
  | absent => exact hheld

/-! ## Told one entry at a time -/

/-- What a copy may have where the value is this: the value, or what stands for none. -/
def Held (r : V → V → Prop) (unset : V) (held value : Option V) : Prop :=
  Option.Rel r held value ∨ held = some unset ∧ value = none

/-- It may keep what it has where a difference has nothing. -/
theorem Held.kept {held before after : Option V} (h : Held r unset held before)
    (htrans : ∀ {a b c}, r a b → r b c → r a c) (hchange : Change r unset none before after) :
    Held r unset held after := by
  cases hchange with
  | kept hsame =>
    rcases h with h | ⟨-, hnone⟩
    · cases h with
      | some h => exact .inl (.some (htrans h hsame))
    · cases hnone
  | absent => exact h

/-- It may have what a difference has. -/
theorem Change.told {before after : Option V} (h : Change r unset (some v) before after) :
    Held r unset (some v) after := by
  cases h with
  | changed _ hself => exact .inl (.some hself)
  | appeared hself => exact .inl (.some hself)
  | removed => exact .inr ⟨rfl, rfl⟩

/-- A value that did not change is one that compares as itself. -/
theorem Change.self {diff : Option V} (h : Change r unset diff (some v) (some v)) : r v v := by
  cases h with
  | kept h => exact h
  | changed _ h => exact h

end AtriumPortal.Lib.Overlay
