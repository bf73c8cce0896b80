import Mathlib.Data.List.Nodup
/-!
# A quota for each owner

Items under their owners in one list, oldest first, at most `cap` of an owner: a
new item past the cap evicts the owner's oldest.
-/

namespace AtriumPortal.Lib.Quota

variable {O I : Type} [DecidableEq O] [DecidableEq I]

/-- The items of one owner, oldest first. -/
def itemsOf (l : List (O × I)) (o : O) : List I := (l.filter (·.1 = o)).map (·.2)

/-- Add an item unless it is there. -/
def push (l : List (O × I)) (k : O × I) : List (O × I) := if k ∈ l then l else l ++ [k]

/-- Add an item; past the cap the owner's oldest is taken out and returned. -/
def track (cap : Nat) (l : List (O × I)) (k : O × I) : List (O × I) × Option I :=
  if cap < (itemsOf (push l k) k.1).length then
    match itemsOf (push l k) k.1 with
    | oldest :: _ => ((push l k).erase (k.1, oldest), some oldest)
    | [] => (push l k, none)
  else (push l k, none)

variable {cap : Nat} {l : List (O × I)} {k x : O × I} {o : O}

omit [DecidableEq I] in
theorem mem_itemsOf {i : I} : i ∈ itemsOf l o ↔ (o, i) ∈ l := by
  simp only [itemsOf, List.mem_map, List.mem_filter, decide_eq_true_eq]
  constructor
  · rintro ⟨⟨_, _⟩, ⟨hm, rfl⟩, rfl⟩
    exact hm
  · exact fun hm => ⟨(o, i), ⟨hm, rfl⟩, rfl⟩

omit [DecidableEq I] in
theorem length_itemsOf : (itemsOf l o).length = l.countP (·.1 = o) := by
  rw [itemsOf, List.length_map, List.countP_eq_length_filter]

omit [DecidableEq I] in
theorem itemsOf_nodup (h : l.Nodup) : (itemsOf l o).Nodup := by
  refine List.Nodup.map_on (fun x hx y hy he => ?_) (h.filter _)
  have howner : x.1 = y.1 := by
    rw [of_decide_eq_true (List.mem_filter.1 hx).2, of_decide_eq_true (List.mem_filter.1 hy).2]
  exact Prod.ext howner he

theorem mem_push : x ∈ push l k ↔ x = k ∨ x ∈ l := by
  unfold push
  split <;> grind

theorem push_nodup (h : l.Nodup) : (push l k).Nodup := by
  unfold push
  split
  · exact h
  · next hnew => simpa using h.concat hnew

theorem length_push_le : (push l k).length ≤ l.length + 1 := by
  unfold push
  split <;> simp

theorem length_itemsOf_push_le : (itemsOf (push l k) o).length ≤ (itemsOf l o).length + if k.1 = o then 1 else 0 := by
  rw [length_itemsOf, length_itemsOf, push]
  split
  · exact Nat.le_add_right _ _
  · simp [List.countP_append, List.countP_cons]

theorem length_itemsOf_erase_le : (itemsOf (l.erase x) o).length ≤ (itemsOf l o).length := by
  rw [length_itemsOf, length_itemsOf]
  exact List.erase_sublist.countP_le

/-- What tracking does: the item is in, or its owner's oldest is out for it. -/
theorem track_cases (cap : Nat) (l : List (O × I)) (k : O × I) :
    track cap l k = (push l k, none) ∨
      ∃ oldest rest, itemsOf (push l k) k.1 = oldest :: rest ∧ cap < (itemsOf (push l k) k.1).length ∧
        track cap l k = ((push l k).erase (k.1, oldest), some oldest) := by
  unfold track
  split
  · next hcap =>
    split
    · next oldest rest hitems => exact .inr ⟨oldest, rest, hitems, hcap, rfl⟩
    · exact .inl rfl
  · exact .inl rfl

theorem track_of_room (hnew : k ∉ l) (hroom : (itemsOf l k.1).length < cap) : track cap l k = (l ++ [k], none) := by
  have hpush : push l k = l ++ [k] := by rw [push, if_neg hnew]
  have hlength : (itemsOf (l ++ [k]) k.1).length = (itemsOf l k.1).length + 1 := by simp [itemsOf]
  rw [track, hpush, if_neg (by omega)]

theorem track_nodup (h : l.Nodup) : (track cap l k).1.Nodup := by
  obtain heq | ⟨oldest, rest, -, -, heq⟩ := track_cases cap l k
  · rw [heq]
    exact push_nodup h
  · rw [heq]
    exact (push_nodup h).erase _

theorem length_track_le : (track cap l k).1.length ≤ l.length + 1 := by
  obtain heq | ⟨oldest, rest, -, -, heq⟩ := track_cases cap l k
  · rw [heq]
    exact length_push_le
  · rw [heq]
    exact Nat.le_trans List.length_erase_le length_push_le

/-- No owner gets past the cap. -/
theorem track_itemsOf_le (h : ∀ o, (itemsOf l o).length ≤ cap) : (itemsOf (track cap l k).1 o).length ≤ cap := by
  have hpush : (itemsOf (push l k) o).length ≤ (itemsOf l o).length + if k.1 = o then 1 else 0 := length_itemsOf_push_le
  unfold track
  split
  · next hcap =>
    split
    · next oldest rest hitems =>
      by_cases ho : k.1 = o
      · subst ho
        rw [if_pos rfl] at hpush
        have hmem : (k.1, oldest) ∈ push l k := mem_itemsOf.1 (by rw [hitems]; exact List.mem_cons_self ..)
        have herase : ((push l k).erase (k.1, oldest)).countP (·.1 = k.1) + 1 = (push l k).countP (·.1 = k.1) := by
          have hperm := (List.perm_cons_erase hmem).countP_eq (·.1 = k.1)
          simpa using hperm.symm
        have hold := h k.1
        show (itemsOf ((push l k).erase (k.1, oldest)) k.1).length ≤ cap
        rw [length_itemsOf] at hpush ⊢
        omega
      · rw [if_neg ho] at hpush
        exact Nat.le_trans length_itemsOf_erase_le (Nat.le_trans hpush (h o))
    · next hnil =>
      rw [hnil] at hcap
      exact absurd hcap (Nat.not_lt_zero _)
  · next hcap =>
    by_cases ho : k.1 = o
    · subst ho
      exact Nat.le_of_not_lt hcap
    · rw [if_neg ho] at hpush
      exact Nat.le_trans hpush (h o)

theorem mem_of_mem_track (h : x ∈ (track cap l k).1) : x = k ∨ x ∈ l := by
  obtain heq | ⟨oldest, rest, -, -, heq⟩ := track_cases cap l k
  · rw [heq] at h
    exact mem_push.1 h
  · rw [heq] at h
    exact mem_push.1 (List.mem_of_mem_erase h)

theorem mem_track_of_mem (h : x ∈ l) (hx : ∀ i, (track cap l k).2 = some i → x ≠ (k.1, i)) : x ∈ (track cap l k).1 := by
  obtain heq | ⟨oldest, rest, -, -, heq⟩ := track_cases cap l k
  · rw [heq]
    exact mem_push.2 (.inr h)
  · rw [heq] at hx ⊢
    exact (List.mem_erase_of_ne (hx oldest rfl)).2 (mem_push.2 (.inr h))

/-- What is evicted was in before and is out. -/
theorem track_evicted (hl : l.Nodup) (hcap : 0 < cap) {i : I} (h : (track cap l k).2 = some i)
    (hfit : (itemsOf l k.1).length ≤ cap) : (k.1, i) ∈ l ∧ (k.1, i) ≠ k ∧ (k.1, i) ∉ (track cap l k).1 := by
  obtain heq | ⟨oldest, rest, hitems, hover, heq⟩ := track_cases cap l k
  · rw [heq] at h
    cases h
  · rw [heq] at h ⊢
    cases h
    have hnew : k ∉ l := by
      intro hk
      rw [push, if_pos hk] at hover
      omega
    have hne : itemsOf l k.1 ≠ [] := by
      intro hnil
      have hlength : (itemsOf (push l k) k.1).length ≤ (itemsOf l k.1).length + if k.1 = k.1 then 1 else 0 :=
        length_itemsOf_push_le
      rw [hnil, if_pos rfl, List.length_nil] at hlength
      omega
    have hhead : i ∈ itemsOf l k.1 := by
      have happend : itemsOf (push l k) k.1 = itemsOf l k.1 ++ [k.2] := by
        simp [push, hnew, itemsOf]
      obtain ⟨first, others, hfirst⟩ := List.exists_cons_of_ne_nil hne
      rw [happend, hfirst] at hitems
      cases hitems
      rw [hfirst]
      exact List.mem_cons_self ..
    have hin : (k.1, i) ∈ l := mem_itemsOf.1 hhead
    exact ⟨hin, fun he => hnew (he ▸ hin), (push_nodup hl).not_mem_erase⟩

theorem self_mem_track (hl : l.Nodup) (hcap : 0 < cap) (hfit : (itemsOf l k.1).length ≤ cap) :
    k ∈ (track cap l k).1 := by
  cases hout : (track cap l k).2 with
  | none =>
    obtain heq | ⟨oldest, rest, -, -, heq⟩ := track_cases cap l k
    · rw [heq]
      exact mem_push.2 (.inl rfl)
    · rw [heq] at hout
      cases hout
  | some i =>
    obtain ⟨-, hne, -⟩ := track_evicted hl hcap hout hfit
    obtain heq | ⟨oldest, rest, -, -, heq⟩ := track_cases cap l k
    · rw [heq] at hout
      cases hout
    · rw [heq] at hout ⊢
      cases hout
      exact (List.mem_erase_of_ne hne.symm).2 (mem_push.2 (.inl rfl))

end AtriumPortal.Lib.Quota
