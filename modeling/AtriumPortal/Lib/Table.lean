import Mathlib.Data.List.AList
/-!
# Counting the values of a table

A finite map as an `AList`, and how many of its values meet a test: what an
insertion, a replacement or a removal does to the count, and that pairwise
different keys whose values meet the test are not more than the count.
-/

namespace AtriumPortal.Lib.Table

variable {K V : Type} [DecidableEq K]

/-- A finite map. -/
abbrev Map (K V : Type) : Type := AList fun _ : K => V

/-- The values that meet `p`. -/
def count (p : V → Bool) (s : Map K V) : Nat := s.entries.countP fun e => p e.2

/-- The keys whose values meet `p`. -/
def keysWith (p : V → Bool) (s : Map K V) : List K := (s.entries.filter fun e => p e.2).map (·.1)

variable {p q : V → Bool} {s : Map K V} {k : K} {v w : V}

theorem mem_entries : (⟨k, v⟩ : Sigma fun _ : K => V) ∈ s.entries ↔ s.lookup k = some v :=
  AList.mem_lookup_iff.symm

/-- What an insertion's result has at a key. -/
theorem lookup_insert_cases {k' : K} (h : (s.insert k v).lookup k' = some w) :
    (k' = k ∧ w = v) ∨ (k' ≠ k ∧ s.lookup k' = some w) := by
  by_cases hk : k' = k
  · subst hk
    exact .inl ⟨rfl, by simpa [eq_comm] using h⟩
  · exact .inr ⟨hk, by rwa [AList.lookup_insert_ne hk] at h⟩

theorem lookup_of_erase {k' : K} (h : (s.erase k).lookup k' = some w) : s.lookup k' = some w := by
  by_cases hk : k' = k
  · subst hk
    rw [AList.lookup_erase] at h
    cases h
  · rwa [AList.lookup_erase_ne hk] at h

theorem mem_keysWith : k ∈ keysWith p s ↔ ∃ v, s.lookup k = some v ∧ p v = true := by
  simp only [keysWith, List.mem_map, List.mem_filter]
  constructor
  · rintro ⟨⟨k', v⟩, ⟨hm, hp⟩, rfl⟩
    exact ⟨v, mem_entries.1 hm, hp⟩
  · rintro ⟨v, hl, hp⟩
    exact ⟨⟨k, v⟩, ⟨mem_entries.2 hl, hp⟩, rfl⟩

omit [DecidableEq K] in
theorem length_keysWith : (keysWith p s).length = count p s := by
  simp [keysWith, count, List.countP_eq_length_filter]

/-- Different keys with values that meet `p` are at most `count p`. -/
theorem length_le_count {ks : List K} (hn : ks.Nodup) (h : ∀ k ∈ ks, ∃ v, s.lookup k = some v ∧ p v = true) :
    ks.length ≤ count p s := by
  rw [← length_keysWith]
  exact (List.subperm_of_subset hn fun k hk => mem_keysWith.2 (h k hk)).length_le

theorem count_entries {l : List (Sigma fun _ : K => V)} (hn : l.NodupKeys) (h : ⟨k, v⟩ ∈ l) :
    l.countP (fun e => p e.2) = (l.kerase k).countP (fun e => p e.2) + (p v).toNat := by
  induction l with
  | nil => cases h
  | cons e l ih =>
    rw [List.nodupKeys_cons] at hn
    by_cases hk : k = e.1
    · obtain rfl : e = ⟨k, v⟩ := by
        rcases List.mem_cons.1 h with h | h
        · exact h.symm
        · exact absurd (hk ▸ List.mem_keys_of_mem h) hn.1
      have hke : (⟨k, v⟩ :: l).kerase k = l := List.kerase_cons_eq rfl
      rw [hke, List.countP_cons]
      cases p v <;> rfl
    · have hm : ⟨k, v⟩ ∈ l := by
        rcases List.mem_cons.1 h with h | h
        · exact absurd (congrArg Sigma.fst h) hk
        · exact h
      rw [List.kerase_cons_ne hk, List.countP_cons, List.countP_cons, ih hn.2 hm]
      omega

/-- Removing a key takes its value out of the count. -/
theorem count_erase (h : s.lookup k = some v) : count p s = count p (s.erase k) + (p v).toNat :=
  count_entries s.nodupKeys (mem_entries.2 h)

theorem count_insert : count p (s.insert k v) = count p (s.erase k) + (p v).toNat := by
  simp only [count, AList.entries_insert, List.countP_cons]
  cases p v <;> rfl

/-- Replacing a value counts the new one for the old one. -/
theorem count_replace (h : s.lookup k = some v) : count p (s.insert k w) + (p v).toNat = count p s + (p w).toNat := by
  rw [count_insert, count_erase h]
  omega

theorem erase_of_lookup_none (h : s.lookup k = none) : s.erase k = s := by
  have hk : k ∉ s := AList.lookup_eq_none.1 h
  exact AList.ext (List.kerase_of_notMem_keys hk)

/-- A fresh key adds its value to the count. -/
theorem count_insert_new (h : s.lookup k = none) : count p (s.insert k v) = count p s + (p v).toNat := by
  rw [count_insert, erase_of_lookup_none h]

theorem count_erase_le : count p (s.erase k) ≤ count p s := by
  cases h : s.lookup k with
  | none => rw [erase_of_lookup_none h]
  | some v => rw [count_erase (p := p) h]; omega

/-- Two tests that no value meets both of. -/
theorem count_add_count (h : ∀ k v, s.lookup k = some v → ¬ (p v = true ∧ q v = true)) :
    count p s + count q s = count (fun v => p v || q v) s := by
  have hl : ∀ e ∈ s.entries, ¬ (p e.2 = true ∧ q e.2 = true) := fun e he => h e.1 e.2 (mem_entries.1 he)
  unfold count
  generalize s.entries = l at hl
  induction l with
  | nil => rfl
  | cons e l ih =>
    have he := hl e (by simp)
    have hrest := ih fun e' he' => hl e' (by simp [he'])
    simp only [List.countP_cons]
    cases hp : p e.2 <;> cases hq : q e.2 <;> simp_all <;> omega

end AtriumPortal.Lib.Table
