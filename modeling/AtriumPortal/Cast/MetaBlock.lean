import AtriumPortal.Cast.Damage
/-!
# Damage in a reused block

A buffer's VideoDamage block still holds the regions of the frame it carried before.
`attach_damage` writes every region the block has room for, so nothing of them is left,
but it collapses a list by the number of regions that was offered: a block with room for
fewer gets the head of a shorter list.
-/
open AtriumPortal.Ipc

namespace AtriumPortal.Cast

/-- `mem::zeroed`. -/
def noRegion : Region := ⟨0, 0, 0, 0⟩

/-- The rects to write: over-capacity damage collapses to the whole frame. -/
def damageRects (damage : List Rect) (width height : Nat) : List Rect :=
  if maxDamageRegions < damage.length then [fullFrame width height] else damage

/-- The write loop, over the regions from `index` on that `spa_meta_check` finds room for. -/
def writeRegions (rects : List Rect) : Nat → List Region → List Region
  | _, [] => []
  | index, _ :: rest => (rects[index]?.map regionOf).getD noRegion :: writeRegions rects (index + 1) rest

/-- `attach_damage` on a block with its earlier content. -/
def overwriteDamage (block : List Region) (damage : List Rect) (width height : Nat) : List Region :=
  writeRegions (damageRects damage width height) 0 block

theorem length_writeRegions (rects : List Rect) (block : List Region) (index : Nat) :
    (writeRegions rects index block).length = block.length := by
  induction block generalizing index with
  | nil => rfl
  | cons _ rest ih => simp [writeRegions, ih]

/-- The loop writes region `i` of the block from rect `index + i` alone. -/
theorem writeRegions_getElem? (rects : List Rect) (block : List Region) (index i : Nat) (hi : i < block.length) :
    (writeRegions rects index block)[i]? = some ((rects[index + i]?.map regionOf).getD noRegion) := by
  induction block generalizing index i with
  | nil => cases hi
  | cons _ rest ih =>
    cases i with
    | zero => rfl
    | succ i =>
      have h := ih (index + 1) i (Nat.lt_of_succ_lt_succ hi)
      rw [Nat.add_assoc, Nat.add_comm 1 i] at h
      simpa [writeRegions] using h

theorem overwriteDamage_getElem? {block : List Region} {i : Nat} (hi : i < block.length) (damage : List Rect)
    (width height : Nat) : (overwriteDamage block damage width height)[i]? =
      some (((damageRects damage width height)[i]?.map regionOf).getD noRegion) := by
  have h := writeRegions_getElem? (damageRects damage width height) block 0 i hi
  rwa [Nat.zero_add] at h

/-- The earlier content has no part in the block that is sent. -/
theorem overwriteDamage_eq (block : List Region) (damage : List Rect) (width height : Nat) :
    overwriteDamage block damage width height = attachDamage (block.length * regionBytes) damage width height := by
  have hroom : block.length * regionBytes / regionBytes = block.length := Nat.mul_div_cancel _ (by decide)
  have hlen : (overwriteDamage block damage width height).length = block.length := length_writeRegions _ block 0
  apply List.ext_getElem?
  intro i
  by_cases hi : i < block.length
  · rw [overwriteDamage_getElem? hi, attachDamage, hroom]
    simp [hi, damageRects, noRegion]
  · rw [List.getElem?_eq_none (by omega), List.getElem?_eq_none]
    simp only [attachDamage, List.length_map, List.length_range]
    omega

/-! ## What a region tells -/

/-- A region holds the pixels of its rect and no others. -/
theorem regionOf_contains_iff {r : Rect} {x y : Nat} :
    (regionOf r).contains x y = true ↔ rectContains r x y = true := by
  refine ⟨fun h => ?_, regionOf_contains⟩
  simp only [rectContains, regionOf, Region.contains, Bool.and_eq_true, decide_eq_true_eq] at h ⊢
  obtain ⟨⟨⟨hx, hw⟩, hy⟩, hh⟩ := h
  have hx := of_decide_eq_true hx
  have hw := of_decide_eq_true hw
  have hy := of_decide_eq_true hy
  have hh := of_decide_eq_true hh
  omega

theorem not_noRegion_contains (x y : Nat) : noRegion.contains x y = false := by
  simp only [noRegion, Region.contains]
  simp

/-- The block reports the pixels of the rects it has room for. -/
theorem reported_overwriteDamage {block : List Region} {damage : List Rect} {width height x y : Nat} :
    Reported (overwriteDamage block damage width height) x y ↔
      Damaged ((damageRects damage width height).take block.length) x y := by
  constructor
  · rintro ⟨region, hr, hc⟩
    obtain ⟨i, hi⟩ := List.mem_iff_getElem?.1 hr
    have hib : i < block.length := by
      rw [← length_writeRegions _ block 0]
      exact (List.getElem?_eq_some_iff.1 hi).1
    rw [overwriteDamage_getElem? hib, Option.some.injEq] at hi
    subst hi
    cases hrect : (damageRects damage width height)[i]? with
    | none =>
      rw [hrect] at hc
      exact absurd hc (by simp [not_noRegion_contains])
    | some rect =>
      rw [hrect] at hc
      have htake := (List.getElem?_take_of_lt hib).trans hrect
      exact ⟨rect, List.mem_iff_getElem?.2 ⟨i, htake⟩, regionOf_contains_iff.1 hc⟩
  · rintro ⟨rect, hrect, hc⟩
    obtain ⟨i, hi⟩ := List.mem_iff_getElem?.1 hrect
    have hib : i < block.length := by
      have := (List.getElem?_eq_some_iff.1 hi).1
      rw [List.length_take] at this
      omega
    rw [List.getElem?_take_of_lt hib] at hi
    refine ⟨regionOf rect, List.mem_iff_getElem?.2 ⟨i, ?_⟩, regionOf_contains hc⟩
    rw [overwriteDamage_getElem? hib, hi]
    rfl

/-! ## What is attached -/

/-- The block tells of the frame's damage, its spare regions are zero, and it is what it
would be over any other earlier content. -/
structure DamageAttached (width height : Nat) (damage : List Rect) (block : List Region) : Prop where
  tells : Tells width height (overwriteDamage block damage width height) damage
  spare : ∀ i region, (damageRects damage width height).length ≤ i →
    (overwriteDamage block damage width height)[i]? = some region → region = noRegion
  fresh : ∀ earlier : List Region, earlier.length = block.length →
    overwriteDamage earlier damage width height = overwriteDamage block damage width height

/-- The rects that a short block leaves out damage no pixel of the frame that the others do not. -/
def Fits (capacity width height : Nat) (damage : List Rect) : Prop :=
  maxDamageRegions < damage.length ∨ Includes width height (damage.take capacity) (damage.drop capacity)

theorem fullFrame_contains {width height : Nat} (hlen : (frameLen width height).isSome = true) {x y : Nat}
    (hx : x < width) (hy : y < height) : rectContains (fullFrame width height) x y = true := by
  obtain ⟨hw, hh⟩ := frameLen_le hlen
  simp only [fullFrame, rectContains, asI32_of_le hw, asI32_of_le hh, Bool.and_eq_true, decide_eq_true_eq]
  omega

/-- A short list is reported as far as the block goes. -/
theorem tells_iff_includes {width height : Nat} {block : List Region} {damage : List Rect}
    (hfew : ¬maxDamageRegions < damage.length) :
    Tells width height (overwriteDamage block damage width height) damage ↔
      Includes width height (damage.take block.length) (damage.drop block.length) := by
  have hrects : damageRects damage width height = damage := if_neg hfew
  constructor
  · intro h x hx y hy hd
    have hall : Damaged damage x y := by
      rw [← List.take_append_drop block.length damage]
      exact damaged_append.2 (.inr hd)
    have hreported := reported_overwriteDamage.1 (h x hx y hy hall)
    rwa [hrects] at hreported
  · intro h x hx y hy hd
    rw [reported_overwriteDamage, hrects]
    rw [← List.take_append_drop block.length damage] at hd
    rcases damaged_append.1 hd with hd | hd
    · exact hd
    · exact h x hx y hy hd

/-- A long list is reported as the whole frame, in any block. -/
theorem tells_of_many {width height : Nat} (hlen : (frameLen width height).isSome = true) {block : List Region}
    (hroom : block ≠ []) {damage : List Rect} (hmany : maxDamageRegions < damage.length) :
    Tells width height (overwriteDamage block damage width height) damage := by
  intro x hx y hy _
  rw [reported_overwriteDamage, damageRects, if_pos hmany, List.take_of_length_le (List.length_pos_iff.2 hroom)]
  exact ⟨_, List.mem_singleton_self _, fullFrame_contains hlen hx hy⟩

/-- The damage attached to a block with room covers the frame's, exactly when the rects
that do not fit add nothing to it. -/
theorem damage_attached_iff {width height : Nat} (hlen : (frameLen width height).isSome = true) {block : List Region}
    (hroom : block ≠ []) (damage : List Rect) :
    DamageAttached width height damage block ↔ Fits block.length width height damage := by
  have hspare : ∀ i region, (damageRects damage width height).length ≤ i →
      (overwriteDamage block damage width height)[i]? = some region → region = noRegion := by
    intro i region hi hget
    have hib : i < block.length := by
      rw [← length_writeRegions _ block 0]
      exact (List.getElem?_eq_some_iff.1 hget).1
    rw [overwriteDamage_getElem? hib, List.getElem?_eq_none hi] at hget
    exact (Option.some.inj hget).symm
  have hfresh : ∀ earlier : List Region, earlier.length = block.length →
      overwriteDamage earlier damage width height = overwriteDamage block damage width height := by
    intro earlier he
    rw [overwriteDamage_eq, overwriteDamage_eq, he]
  have hattached : DamageAttached width height damage block ↔
      Tells width height (overwriteDamage block damage width height) damage :=
    ⟨(·.tells), fun h => ⟨h, hspare, hfresh⟩⟩
  rw [hattached, Fits]
  by_cases hmany : maxDamageRegions < damage.length
  · exact iff_of_true (tells_of_many hlen hroom hmany) (.inl hmany)
  · rw [tells_iff_includes hmany]
    exact (or_iff_right hmany).symm

/-- Three rects in a block for two, the third within the first. -/
theorem damage_attached_nested :
    DamageAttached 2 2 [StreamData.topRow, ⟨⟨0, 1⟩, ⟨1, 1⟩⟩, StreamData.firstPixel] [⟨0, 0, 2, 2⟩, ⟨1, 1, 1, 1⟩] :=
  (damage_attached_iff (by decide) (by decide) _).2 (.inr (by decide))

/-- Two rects in a block for one: the last pixel is not reported. -/
theorem damage_truncated : ¬DamageAttached 2 2 [StreamData.firstPixel, ⟨⟨1, 1⟩, ⟨1, 1⟩⟩] [noRegion] := fun h =>
  absurd (h.tells 1 (by decide) 1 (by decide) (by decide)) (by decide)

end AtriumPortal.Cast
