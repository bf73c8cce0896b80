import AtriumPortal.Cast.Loop
/-!
# Where the PipeWire buffers are

`Placed` relates the binding table to the four places a buffer can be: the copy
pool, PipeWire's queue of returned buffers, the consumer, and (a bound buffer
that was dequeued) nowhere. Every move of a buffer keeps it, in every run. Its
main content: a bound buffer that the cast does not think is in flight is
neither with the consumer nor in the copy pool, and a bound buffer is never
backed by memory of the copy path.
-/

namespace AtriumPortal.Cast

/-! ## The binding table -/

/-- Slot `k` is bound to buffer `b`, with its in-flight flag. -/
def Bound (bindings : List SlotBinding) (k : Nat) (b : Buf) (inFlight : Bool) : Prop :=
  bindings[k]? = some ⟨some b, inFlight⟩

theorem not_bound_unbound (n k : Nat) (b : Buf) (f : Bool) : ¬ Bound (Transport.unbound n) k b f := by
  simp only [Bound, Transport.unbound, List.getElem?_replicate]
  split <;> simp

theorem Bound.congr {bindings : List SlotBinding} {k : Nat} {b c : Buf} {f g : Bool} (h : Bound bindings k b f)
    (h' : Bound bindings k c g) : b = c ∧ f = g := by
  simpa [Bound] using h.symm.trans h'

/-- A changed in-flight flag changes no buffer. -/
theorem bound_setInFlight {bindings : List SlotBinding} {k j : Nat} {x : Buf} {f v : Bool}
    (h : Bound (bindings.modify k (setInFlight v)) j x f) :
    (j = k ∧ f = v ∧ ∃ g, Bound bindings j x g) ∨ (j ≠ k ∧ Bound bindings j x f) := by
  simp only [Bound, List.getElem?_modify, Option.map_eq_map, Option.map_eq_some_iff] at h
  obtain ⟨⟨pool, g⟩, hg, he⟩ := h
  by_cases hjk : k = j
  · subst hjk
    simp only [setInFlight, if_true, SlotBinding.mk.injEq] at he
    obtain ⟨rfl, rfl⟩ := he
    exact .inl ⟨rfl, rfl, g, hg⟩
  · simp only [hjk, if_false] at he
    exact .inr ⟨fun h => hjk h.symm, by rw [Bound, hg, he]⟩

theorem bound_of_setInFlight {bindings : List SlotBinding} {k j : Nat} {x : Buf} {f v : Bool}
    (h : Bound (bindings.modify k (setInFlight v)) j x f) : ∃ g, Bound bindings j x g := by
  rcases bound_setInFlight h with ⟨_, _, hg⟩ | ⟨_, hg⟩
  · exact hg
  · exact ⟨f, hg⟩

theorem setInFlight_bound {bindings : List SlotBinding} {k : Nat} {b : Buf} {f : Bool} (v : Bool)
    (h : Bound bindings k b f) : Bound (bindings.modify k (setInFlight v)) k b v := by
  unfold Bound at h ⊢
  simp [h, setInFlight]

/-! ## The four places -/

structure Placed (bindings : List SlotBinding) (pool returned consumer buffers : List Buf)
    (poolMem : List (Buf × Nat)) : Prop where
  injective : ∀ i j b f g, Bound bindings i b f → Bound bindings j b g → i = j
  inFlight_bound : ∀ k : Nat, bindings[k]? ≠ some (SlotBinding.mk none true)
  away : ∀ k b, Bound bindings k b false → b ∉ consumer ∧ b ∉ pool
  unmapped : ∀ k b f n, Bound bindings k b f → (b, n) ∉ poolMem
  bound_known : ∀ k b f, Bound bindings k b f → b ∈ buffers
  known : ∀ b, b ∈ pool ∨ b ∈ returned ∨ b ∈ consumer → b ∈ buffers
  mapped_known : ∀ b n, (b, n) ∈ poolMem → b ∈ buffers
  unique : ∀ b, pool.count b + returned.count b + consumer.count b ≤ 1

/-- A bound buffer that is not in flight has been dequeued. -/
def Settled (bindings : List SlotBinding) (returned : List Buf) : Prop :=
  ∀ k b, Bound bindings k b false → b ∉ returned

namespace Placed

variable {bindings : List SlotBinding} {pool returned consumer buffers : List Buf} {poolMem : List (Buf × Nat)}

theorem unbound (n : Nat) (h : Placed bindings pool returned consumer buffers poolMem) :
    Placed (Transport.unbound n) pool returned consumer buffers poolMem where
  injective := fun i j b f g hi _ => absurd hi (not_bound_unbound n i b f)
  inFlight_bound := by
    intro k
    simp only [Transport.unbound, List.getElem?_replicate]
    split <;> simp
  away := fun k b hk => absurd hk (not_bound_unbound n k b _)
  unmapped := fun k b f m hk => absurd hk (not_bound_unbound n k b f)
  bound_known := fun k b f hk => absurd hk (not_bound_unbound n k b f)
  known := h.known
  mapped_known := h.mapped_known
  unique := h.unique

/-- A buffer is in one place only. -/
theorem not_elsewhere {b : Buf} {rest : List Buf} (h : Placed bindings pool (b :: rest) consumer buffers poolMem) :
    b ∉ pool ∧ b ∉ rest ∧ b ∉ consumer := by
  have := h.unique b
  simp only [List.count_cons_self] at this
  exact ⟨List.count_eq_zero.1 (by omega), List.count_eq_zero.1 (by omega), List.count_eq_zero.1 (by omega)⟩

theorem not_elsewhere_pool {b : Buf} {rest : List Buf} (h : Placed bindings (b :: rest) returned consumer buffers poolMem) :
    b ∉ rest ∧ b ∉ returned ∧ b ∉ consumer := by
  have := h.unique b
  simp only [List.count_cons_self] at this
  exact ⟨List.count_eq_zero.1 (by omega), List.count_eq_zero.1 (by omega), List.count_eq_zero.1 (by omega)⟩

/-- The lists may shrink. -/
theorem shrink {pool' returned' consumer' : List Buf} (h : Placed bindings pool returned consumer buffers poolMem)
    (hp : ∀ b, pool'.count b ≤ pool.count b) (hr : ∀ b, returned'.count b ≤ returned.count b)
    (hc : ∀ b, consumer'.count b ≤ consumer.count b) : Placed bindings pool' returned' consumer' buffers poolMem := by
  have mem : ∀ {l l' : List Buf}, (∀ b, l'.count b ≤ l.count b) → ∀ b ∈ l', b ∈ l := by
    intro l l' hl b hb
    exact List.count_pos_iff.1 (Nat.lt_of_lt_of_le (List.count_pos_iff.2 hb) (hl b))
  refine { h with away := ?_, known := ?_, unique := ?_ }
  · intro k b hk
    exact ⟨fun hb => (h.away k b hk).1 (mem hc b hb), fun hb => (h.away k b hk).2 (mem hp b hb)⟩
  · rintro b (hb | hb | hb)
    · exact h.known b (.inl (mem hp b hb))
    · exact h.known b (.inr (.inl (mem hr b hb)))
    · exact h.known b (.inr (.inr (mem hc b hb)))
  · intro b
    have := h.unique b
    have := hp b
    have := hr b
    have := hc b
    omega

theorem dequeue {b : Buf} {rest : List Buf} (h : Placed bindings pool (b :: rest) consumer buffers poolMem) :
    Placed bindings pool rest consumer buffers poolMem :=
  h.shrink (fun _ => Nat.le_refl _) (fun _ => List.count_le_count_cons) (fun _ => Nat.le_refl _)

theorem pop {b : Buf} {rest : List Buf} (h : Placed bindings (b :: rest) returned consumer buffers poolMem) :
    Placed bindings rest returned consumer buffers poolMem :=
  h.shrink (fun _ => List.count_le_count_cons) (fun _ => Nat.le_refl _) (fun _ => Nat.le_refl _)

theorem rotate {b : Buf} {rest : List Buf} (h : Placed bindings (b :: rest) returned consumer buffers poolMem) :
    Placed bindings (rest ++ [b]) returned consumer buffers poolMem := by
  refine h.shrink (fun x => ?_) (fun _ => Nat.le_refl _) (fun _ => Nat.le_refl _)
  simp only [List.count_append, List.count_cons, List.count_nil]
  omega

/-- A dequeued buffer goes to the copy pool, unless it is bound and not in flight. -/
theorem stash {b : Buf} {rest : List Buf} (h : Placed bindings pool (b :: rest) consumer buffers poolMem)
    (hb : ∀ k, ¬ Bound bindings k b false) :
    Placed bindings (pool ++ [b]) rest consumer buffers poolMem := by
  refine { h with away := ?_, known := ?_, unique := ?_ }
  · intro k x hk
    refine ⟨(h.away k x hk).1, fun hx => ?_⟩
    rcases List.mem_append.1 hx with hx | hx
    · exact (h.away k x hk).2 hx
    · rw [List.mem_singleton.1 hx] at hk
      exact hb k hk
  · intro x hx
    apply h.known
    simp only [List.mem_append, List.mem_cons, List.not_mem_nil, or_false] at hx ⊢
    tauto
  · intro x
    have := h.unique x
    simp only [List.count_append, List.count_cons, List.count_nil] at this ⊢
    omega

/-- A new in-flight flag needs its buffer to be away when it is `false`. -/
theorem flag {k : Nat} {b : Buf} {f : Bool} (v : Bool) (h : Placed bindings pool returned consumer buffers poolMem)
    (hk : Bound bindings k b f) (hv : v = false → b ∉ consumer ∧ b ∉ pool) :
    Placed (bindings.modify k (setInFlight v)) pool returned consumer buffers poolMem := by
  refine { h with injective := ?_, inFlight_bound := ?_, away := ?_, unmapped := ?_, bound_known := ?_ }
  · intro i j x f g hi hj
    obtain ⟨f', hi⟩ := bound_of_setInFlight hi
    obtain ⟨g', hj⟩ := bound_of_setInFlight hj
    exact h.injective i j x f' g' hi hj
  · intro j hj
    simp only [List.getElem?_modify] at hj
    by_cases hjk : k = j
    · subst hjk
      unfold Bound at hk
      simp [hk, setInFlight] at hj
    · simp only [hjk, if_false, Option.map_id_fun', id_eq, Option.map_eq_map] at hj
      exact h.inFlight_bound j hj
  · intro j x hj
    rcases bound_setInFlight hj with ⟨rfl, hf, g, hg⟩ | ⟨_, hj⟩
    · rw [← (hk.congr hg).1]; exact hv hf.symm
    · exact h.away j x hj
  · intro j x f n hj
    obtain ⟨g, hj⟩ := bound_of_setInFlight hj
    exact h.unmapped j x g n hj
  · intro j x f hj
    obtain ⟨g, hj⟩ := bound_of_setInFlight hj
    exact h.bound_known j x g hj

/-- A reclaimed slot is no longer in flight. -/
theorem reclaim {k : Nat} {b : Buf} {f : Bool} {rest : List Buf}
    (h : Placed bindings pool (b :: rest) consumer buffers poolMem) (hk : Bound bindings k b f) :
    Placed (bindings.modify k (setInFlight false)) pool rest consumer buffers poolMem :=
  have ⟨hp, _, hc⟩ := h.not_elsewhere
  h.dequeue.flag false hk fun _ => ⟨hc, hp⟩

/-- A buffer in nobody's hands is queued to the consumer. -/
theorem queue {b : Buf} (h : Placed bindings pool returned consumer buffers poolMem) (hknown : b ∈ buffers)
    (hp : b ∉ pool) (hr : b ∉ returned) (hc : b ∉ consumer) (hb : ∀ k, ¬ Bound bindings k b false) :
    Placed bindings pool returned (b :: consumer) buffers poolMem := by
  refine { h with away := ?_, known := ?_, unique := ?_ }
  · intro k x hk
    refine ⟨fun hx => ?_, (h.away k x hk).2⟩
    rcases List.mem_cons.1 hx with rfl | hx
    · exact hb k hk
    · exact (h.away k x hk).1 hx
  · rintro x (hx | hx | hx)
    · exact h.known x (.inl hx)
    · exact h.known x (.inr (.inl hx))
    · rcases List.mem_cons.1 hx with rfl | hx
      · exact hknown
      · exact h.known x (.inr (.inr hx))
  · intro x
    have hx := h.unique x
    by_cases hbx : b = x
    · subst hbx
      simp [List.count_eq_zero.2 hp, List.count_eq_zero.2 hr, List.count_eq_zero.2 hc]
    · simpa [List.count_cons, hbx] using hx

/-- The consumer returns a buffer. -/
theorem giveBack {b : Buf} (h : Placed bindings pool returned consumer buffers poolMem) (hb : b ∈ consumer) :
    Placed bindings pool (returned ++ [b]) (consumer.filter (· != b)) buffers poolMem := by
  have hcount := h.unique b
  have hpos := List.count_pos_iff.2 hb
  have hs : Placed bindings pool returned (consumer.filter (· != b)) buffers poolMem :=
    h.shrink (fun _ => Nat.le_refl _) (fun _ => Nat.le_refl _) (fun x => List.Sublist.count_le x List.filter_sublist)
  refine { hs with known := ?_, unique := ?_ }
  · rintro x (hx | hx | hx)
    · exact hs.known x (.inl hx)
    · rcases List.mem_append.1 hx with hx | hx
      · exact hs.known x (.inr (.inl hx))
      · rw [List.mem_singleton.1 hx]; exact h.known b (.inr (.inr hb))
    · exact hs.known x (.inr (.inr hx))
  · intro x
    have hx := hs.unique x
    by_cases hbx : b = x
    · subst hbx
      have : (consumer.filter (· != b)).count b = 0 := List.count_eq_zero.2 (by simp)
      simp only [List.count_append, List.count_singleton_self]
      omega
    · simpa [List.count_append, List.count_singleton, hbx] using hx

/-- A new buffer can be dequeued. -/
theorem add {b : Buf} (h : Placed bindings pool returned consumer buffers poolMem) (hb : b ∉ buffers) :
    Placed bindings pool (returned ++ [b]) consumer (b :: buffers) poolMem := by
  refine { h with bound_known := ?_, known := ?_, mapped_known := ?_, unique := ?_ }
  · exact fun k x f hk => List.mem_cons_of_mem _ (h.bound_known k x f hk)
  · rintro x (hx | hx | hx)
    · exact List.mem_cons_of_mem _ (h.known x (.inl hx))
    · rcases List.mem_append.1 hx with hx | hx
      · exact List.mem_cons_of_mem _ (h.known x (.inr (.inl hx)))
      · rw [List.mem_singleton.1 hx]; exact List.mem_cons_self
    · exact List.mem_cons_of_mem _ (h.known x (.inr (.inr hx)))
  · exact fun x n hx => List.mem_cons_of_mem _ (h.mapped_known x n hx)
  · intro x
    have hx := h.unique x
    by_cases hbx : b = x
    · subst hbx
      have hp : pool.count b = 0 := List.count_eq_zero.2 fun hm => hb (h.known b (.inl hm))
      have hr : returned.count b = 0 := List.count_eq_zero.2 fun hm => hb (h.known b (.inr (.inl hm)))
      have hc : consumer.count b = 0 := List.count_eq_zero.2 fun hm => hb (h.known b (.inr (.inr hm)))
      simp [List.count_append, hp, hr, hc]
    · simpa [List.count_append, List.count_singleton, hbx] using hx

/-- A new buffer is backed by memory of the copy path. -/
theorem map {b : Buf} (n : Nat) (h : Placed bindings pool returned consumer buffers poolMem) (hb : b ∈ buffers)
    (hn : ∀ k f, ¬ Bound bindings k b f) :
    Placed bindings pool returned consumer buffers ((b, n) :: poolMem) := by
  refine { h with unmapped := ?_, mapped_known := ?_ }
  · intro k x f m hk hm
    rcases List.mem_cons.1 hm with he | hm
    · cases he; exact hn k f hk
    · exact h.unmapped k x f m hk hm
  · intro x m hm
    rcases List.mem_cons.1 hm with he | hm
    · cases he; exact hb
    · exact h.mapped_known x m hm

theorem bound_bind {k j : Nat} {b x : Buf} {f : Bool} (hk : ∃ f, bindings[k]? = some (SlotBinding.mk none f))
    (h : Bound (bindings.modify k ({ · with pool := some b })) j x f) :
    (j = k ∧ x = b ∧ bindings[k]? = some (SlotBinding.mk none f)) ∨ (j ≠ k ∧ Bound bindings j x f) := by
  obtain ⟨g, hg⟩ := hk
  simp only [Bound, List.getElem?_modify, Option.map_eq_map, Option.map_eq_some_iff] at h
  obtain ⟨binding, hj, he⟩ := h
  by_cases hjk : k = j
  · subst hjk
    rw [hg, Option.some.injEq] at hj
    subst hj
    simp only [if_true, SlotBinding.mk.injEq, Option.some.injEq] at he
    obtain ⟨rfl, rfl⟩ := he
    exact .inl ⟨rfl, rfl, hg⟩
  · simp only [hjk, if_false] at he
    exact .inr ⟨fun h => hjk h.symm, by rw [Bound, hj, he]⟩

/-- A buffer nobody holds is bound to a free slot. -/
theorem bind {k : Nat} {b : Buf} (h : Placed bindings pool returned consumer buffers poolMem) (hb : b ∈ buffers)
    (hk : ∃ f, bindings[k]? = some (SlotBinding.mk none f)) (hn : ∀ j f, ¬ Bound bindings j b f) (hc : b ∉ consumer)
    (hp : b ∉ pool) (hm : ∀ n, (b, n) ∉ poolMem) :
    Placed (bindings.modify k ({ · with pool := some b })) pool returned consumer buffers poolMem := by
  refine { h with injective := ?_, inFlight_bound := ?_, away := ?_, unmapped := ?_, bound_known := ?_ }
  · intro i j x f g hi hj
    rcases bound_bind hk hi with ⟨rfl, rfl, _⟩ | ⟨_, hi'⟩ <;> rcases bound_bind hk hj with ⟨rfl, he, _⟩ | ⟨_, hj'⟩
    · rfl
    · exact absurd hj' (hn j g)
    · exact absurd (he ▸ hi') (hn i f)
    · exact h.injective i j x f g hi' hj'
  · intro j hj
    obtain ⟨g, hg⟩ := hk
    simp only [List.getElem?_modify, Option.map_eq_map, Option.map_eq_some_iff] at hj
    obtain ⟨binding, hb', he⟩ := hj
    by_cases hjk : k = j
    · subst hjk; simp at he
    · simp only [hjk, if_false] at he
      exact h.inFlight_bound j (he ▸ hb')
  · intro j x hj
    rcases bound_bind hk hj with ⟨_, rfl, _⟩ | ⟨_, hj⟩
    · exact ⟨hc, hp⟩
    · exact h.away j x hj
  · intro j x f n hj
    rcases bound_bind hk hj with ⟨_, rfl, _⟩ | ⟨_, hj⟩
    · exact hm n
    · exact h.unmapped j x f n hj
  · intro j x f hj
    rcases bound_bind hk hj with ⟨_, rfl, _⟩ | ⟨_, hj⟩
    · exact hb
    · exact h.bound_known j x f hj

theorem bound_clear {k j : Nat} {x : Buf} {f : Bool}
    (h : Bound (bindings.modify k fun _ => ⟨none, false⟩) j x f) : j ≠ k ∧ Bound bindings j x f := by
  simp only [Bound, List.getElem?_modify, Option.map_eq_map, Option.map_eq_some_iff] at h
  obtain ⟨binding, hj, he⟩ := h
  by_cases hjk : k = j
  · simp [hjk] at he
  · simp only [hjk, if_false] at he
    exact ⟨fun h => hjk h.symm, by rw [Bound, hj, he]⟩

/-- A slot is unbound. -/
theorem clear (k : Nat) (h : Placed bindings pool returned consumer buffers poolMem) :
    Placed (bindings.modify k fun _ => ⟨none, false⟩) pool returned consumer buffers poolMem where
  injective := fun i j b f g hi hj => h.injective i j b f g (bound_clear hi).2 (bound_clear hj).2
  inFlight_bound := by
    intro j hj
    simp only [List.getElem?_modify, Option.map_eq_map, Option.map_eq_some_iff] at hj
    obtain ⟨binding, hb, he⟩ := hj
    by_cases hjk : k = j
    · simp [hjk] at he
    · simp only [hjk, if_false] at he
      exact h.inFlight_bound j (he ▸ hb)
  away := fun j b hj => h.away j b (bound_clear hj).2
  unmapped := fun j b f n hj => h.unmapped j b f n (bound_clear hj).2
  bound_known := fun j b f hj => h.bound_known j b f (bound_clear hj).2
  known := h.known
  mapped_known := h.mapped_known
  unique := h.unique

/-- An unbound buffer leaves every place. -/
theorem remove {b : Buf} (h : Placed bindings pool returned consumer buffers poolMem)
    (hn : ∀ k f, ¬ Bound bindings k b f) :
    Placed bindings (pool.filter (· != b)) (returned.filter (· != b)) (consumer.filter (· != b))
      (buffers.filter (· != b)) (poolMem.filter (·.1 != b)) := by
  have hs := h.shrink (fun x => List.Sublist.count_le x (List.filter_sublist (p := (· != b))))
    (fun x => List.Sublist.count_le x (List.filter_sublist (p := (· != b))))
    (fun x => List.Sublist.count_le x (List.filter_sublist (p := (· != b))))
  refine { hs with unmapped := ?_, bound_known := ?_, known := ?_, mapped_known := ?_ }
  · exact fun k x f n hk hm => h.unmapped k x f n hk (List.mem_filter.1 hm).1
  · intro k x f hk
    refine List.mem_filter.2 ⟨h.bound_known k x f hk, ?_⟩
    simp only [bne_iff_ne]
    rintro rfl
    exact hn k f hk
  · intro x hx
    have hne : x ≠ b := by
      rcases hx with hx | hx | hx <;> simpa using (List.mem_filter.1 hx).2
    exact List.mem_filter.2 ⟨hs.known x hx, by simpa using hne⟩
  · intro x n hx
    obtain ⟨hx, hne⟩ := List.mem_filter.1 hx
    exact List.mem_filter.2 ⟨h.mapped_known x n hx, hne⟩

end Placed

end AtriumPortal.Cast
