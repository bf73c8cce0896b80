import AtriumPortal.Cast.Events
import Mathlib.Algebra.Group.Int.Defs
/-!
# Damage metadata

`cast/meta.rs`: the damage regions a published buffer carries, and whether they
tell a consumer of everything that changed since the buffer before. Only the
published frame's own damage is attached, so a frame that was replaced or
dropped before it was published takes its damage with it.
-/
open AtriumPortal.Ipc AtriumPortal.Lib.Runs

namespace AtriumPortal.Cast

/-! ## The regions of a buffer -/

/-- A `spa_meta_region`. -/
structure Region where
  x : Int
  y : Int
  width : Nat
  height : Nat
  deriving DecidableEq, Repr

def maxDamageRegions : Nat := 16
/-- The bytes of a `spa_meta_region`. -/
def regionBytes : Nat := 16
/-- The size that is offered for the VideoDamage metadata. -/
def damageMetaSize : Nat := maxDamageRegions * regionBytes

/-- `as i32`. -/
def asI32 (n : Nat) : Int := (n + 2 ^ 31 : Int) % 2 ^ 32 - 2 ^ 31

def fullFrame (width height : Nat) : Rect := ⟨⟨0, 0⟩, ⟨asI32 width, asI32 height⟩⟩

def regionOf (rect : Rect) : Region := ⟨rect.origin.x, rect.origin.y, rect.size.w.toNat, rect.size.h.toNat⟩

/-- `attach_damage` on a metadata block of `size` bytes: too many rects collapse to
the whole frame, and what is left of the block is zeroed. -/
def attachDamage (size : Nat) (damage : List Rect) (width height : Nat) : List Region :=
  let rects := if maxDamageRegions < damage.length then [fullFrame width height] else damage
  (List.range (size / regionBytes)).map fun index => (rects[index]?.map regionOf).getD ⟨0, 0, 0, 0⟩

def Region.contains (r : Region) (x y : Nat) : Bool :=
  r.x ≤ x && x < r.x + r.width && r.y ≤ y && y < r.y + r.height

def rectContains (r : Rect) (x y : Nat) : Bool :=
  r.origin.x ≤ x && x < r.origin.x + r.size.w && r.origin.y ≤ y && y < r.origin.y + r.size.h

/-- The pixel is in one of the rects. -/
def Damaged (rects : List Rect) (x y : Nat) : Prop := ∃ r ∈ rects, rectContains r x y = true

/-- The pixel is in one of the regions. -/
def Reported (regions : List Region) (x y : Nat) : Prop := ∃ r ∈ regions, r.contains x y = true

instance (rects : List Rect) (x y : Nat) : Decidable (Damaged rects x y) :=
  inferInstanceAs (Decidable (∃ r ∈ rects, _))

instance (regions : List Region) (x y : Nat) : Decidable (Reported regions x y) :=
  inferInstanceAs (Decidable (∃ r ∈ regions, _))

/-- Of a frame's pixels, everything damaged by `missed` is damaged by `rects`. -/
def Includes (width height : Nat) (rects missed : List Rect) : Prop :=
  ∀ x < width, ∀ y < height, Damaged missed x y → Damaged rects x y

instance (width height : Nat) (rects missed : List Rect) : Decidable (Includes width height rects missed) :=
  inferInstanceAs (Decidable (∀ x < width, ∀ y < height, _))

/-- Of a frame's pixels, everything damaged by `missed` is in one of the regions. -/
def Tells (width height : Nat) (regions : List Region) (missed : List Rect) : Prop :=
  ∀ x < width, ∀ y < height, Damaged missed x y → Reported regions x y

theorem damaged_append {l l' : List Rect} {x y : Nat} : Damaged (l ++ l') x y ↔ Damaged l x y ∨ Damaged l' x y := by
  simp only [Damaged, List.mem_append]
  constructor
  · rintro ⟨r, hr | hr, hc⟩
    · exact .inl ⟨r, hr, hc⟩
    · exact .inr ⟨r, hr, hc⟩
  · rintro (⟨r, hr, hc⟩ | ⟨r, hr, hc⟩)
    · exact ⟨r, .inl hr, hc⟩
    · exact ⟨r, .inr hr, hc⟩

theorem regionOf_contains {r : Rect} {x y : Nat} (h : rectContains r x y = true) : (regionOf r).contains x y = true := by
  simp only [rectContains, regionOf, Region.contains, Bool.and_eq_true, decide_eq_true_eq] at h ⊢
  obtain ⟨⟨⟨hx, hw⟩, hy⟩, hh⟩ := h
  have := Int.self_le_toNat r.size.w
  have := Int.self_le_toNat r.size.h
  exact ⟨⟨⟨decide_eq_true hx, decide_eq_true (by omega)⟩, decide_eq_true hy⟩, decide_eq_true (by omega)⟩

theorem asI32_of_le {n : Nat} (h : n ≤ i32Max) : asI32 n = n := by
  unfold asI32 i32Max at *
  omega

/-- A geometry that fits a frame is in the range of `i32`. -/
theorem frameLen_le {width height : Nat} (h : (frameLen width height).isSome = true) :
    width ≤ i32Max ∧ height ≤ i32Max := by
  unfold frameLen at h
  split at h
  · cases h
  · next hn =>
    simp only [not_or, Nat.not_lt] at hn
    obtain ⟨hw, hh, hlen⟩ := hn
    have hw' : width ≤ width * height := Nat.le_mul_of_pos_right width (by omega)
    have hh' : height ≤ width * height := Nat.le_mul_of_pos_left height (by omega)
    unfold maxFrameBytes at hlen
    unfold i32Max
    omega

/-- A full-size block tells of all the frame's damage. -/
theorem attachDamage_tells {width height : Nat} (hlen : (frameLen width height).isSome = true) (damage : List Rect) :
    Tells width height (attachDamage damageMetaSize damage width height) damage := by
  intro x hx y hy h
  have hsize : damageMetaSize / regionBytes = maxDamageRegions := rfl
  obtain ⟨r, hr, hc⟩ := h
  unfold attachDamage Reported
  rw [hsize]
  by_cases hmany : maxDamageRegions < damage.length
  · refine ⟨regionOf (fullFrame width height), List.mem_map.2 ⟨0, by decide, by simp [hmany]⟩, ?_⟩
    obtain ⟨hw, hh⟩ := frameLen_le hlen
    refine regionOf_contains ?_
    simp only [fullFrame, rectContains, asI32_of_le hw, asI32_of_le hh, Bool.and_eq_true, decide_eq_true_eq]
    omega
  · obtain ⟨i, hi, rfl⟩ := List.getElem_of_mem hr
    refine ⟨regionOf damage[i], List.mem_map.2 ⟨i, List.mem_range.2 (by omega), ?_⟩, regionOf_contains hc⟩
    simp [hmany, List.getElem?_eq_getElem hi]

/-! ## Damage over a run -/

def FramePayload.damage : FramePayload → List Rect
  | .descriptor _ _ damage => damage
  | .slot _ damage => damage

theorem validateFrame_damage {frame : StreamFrame} {w h : Nat} {announced : AnnouncedFormat} {count : Nat}
    {payload : FramePayload} (hv : validateFrame frame w h announced count = .ok payload) :
    payload.damage = frame.damage := by
  simp only [validateFrame] at hv
  repeat' split at hv
  all_goals cases hv
  all_goals rfl

namespace StreamData

/-- The damage of the live stream's frames accepted since the last buffer went out. -/
def unreported : List Event → List Rect
  | [] => []
  | .queued _ _ _ _ :: _ => []
  | .restarted :: _ => []
  | .delivered frame true :: log => frame.damage ++ unreported log
  | .delivered _ false :: log => unreported log
  | .released _ _ _ _ :: log => unreported log
  | .copied _ _ _ _ _ :: log => unreported log

/-- Every buffer of the live stream told of all the damage that was unreported. -/
def DamageCovered (s : StreamData) : Prop :=
  ∀ post pre b k seq damage, s.log = post ++ .queued b k seq damage :: pre → .restarted ∉ post →
    Tells s.transport.width s.transport.height
      (attachDamage damageMetaSize damage s.transport.width s.transport.height) (unreported pre)

/-- A frame is accepted only when its own damage includes all that is unreported. -/
def CoversMissed (s : StreamData) : Label → Prop
  | .ipc (.ok (.frame frame)) _ => frame.streamId = s.transport.streamId →
      (validateFrame frame s.transport.width s.transport.height s.transport.announced s.transport.slotCount).toBool = true →
      Includes s.transport.width s.transport.height frame.damage (unreported s.log)
  | _ => True

instance (s : StreamData) (l : Label) : Decidable (s.CoversMissed l) := by
  unfold CoversMissed
  split <;> infer_instance

def latestDamage (s : StreamData) : List Rect := (s.latest.map (·.damage)).getD []

/-- `DamageCovered`, event by event. -/
def Told (width height : Nat) : List Event → Prop
  | [] => True
  | .restarted :: _ => True
  | .queued _ _ _ damage :: log =>
    Tells width height (attachDamage damageMetaSize damage width height) (unreported log) ∧ Told width height log
  | .delivered _ _ :: log => Told width height log
  | .released _ _ _ _ :: log => Told width height log
  | .copied _ _ _ _ _ :: log => Told width height log

theorem Told.of_append {width height : Nat} {pre : List Event} {b : Buf} {k : Option Nat} {seq : Nat} {damage : List Rect}
    (post : List Event) (h : Told width height (post ++ .queued b k seq damage :: pre)) (hpost : .restarted ∉ post) :
    Tells width height (attachDamage damageMetaSize damage width height) (unreported pre) := by
  induction post with
  | nil => exact h.1
  | cons e post ih =>
    have hrest : Event.restarted ∉ post := fun hm => hpost (List.mem_cons_of_mem _ hm)
    cases e with
    | restarted => exact absurd List.mem_cons_self hpost
    | queued b' k' seq' damage' => exact ih h.2 hrest
    | delivered frame accepted => exact ih h hrest
    | released id slot held cause => exact ih h hrest
    | copied source b' stride w hgt => exact ih h hrest

/-- Events that neither add nor report damage. -/
def silent : Event → Bool
  | .released _ _ _ _ | .copied _ _ _ _ _ | .delivered _ false => true
  | _ => false

theorem silent_append {ev : List Event} (log : List Event) (h : ∀ e ∈ ev, silent e = true) (width height : Nat) :
    unreported (ev ++ log) = unreported log ∧ (Told width height log → Told width height (ev ++ log)) := by
  induction ev with
  | nil => exact ⟨rfl, id⟩
  | cons e ev ih =>
    obtain ⟨hu, ht⟩ := ih fun e he => h e (List.mem_cons_of_mem _ he)
    have he := h e List.mem_cons_self
    cases e with
    | restarted => cases he
    | queued b k seq damage => cases he
    | released id slot held cause => exact ⟨hu, ht⟩
    | copied source b stride w hgt => exact ⟨hu, ht⟩
    | delivered frame accepted =>
      cases accepted with
      | false => exact ⟨hu, ht⟩
      | true => cases he

/-- The latest frame covers what is unreported, and every buffer so far did. -/
structure Reporting (s : StreamData) : Prop where
  sized : (frameLen s.transport.width s.transport.height).isSome = true
  covers : Includes s.transport.width s.transport.height s.latestDamage (unreported s.log)
  told : Told s.transport.width s.transport.height s.log

theorem Reporting.adds {s s' : StreamData} (h : s.Reporting) (hs : Adds silent s s') : s'.Reporting := by
  obtain ⟨ev, hlog, hev⟩ := hs.log
  obtain ⟨hu, ht⟩ := silent_append s.log hev s.transport.width s.transport.height
  have hd : s'.latestDamage = s.latestDamage := by simp only [latestDamage, hs.latest]
  refine ⟨?_, ?_, ?_⟩
  · rw [hs.width, hs.height]; exact h.sized
  · rw [hs.width, hs.height, hlog, hu, hd]; exact h.covers
  · rw [hs.width, hs.height, hlog]; exact ht h.told

theorem silent_of_isRelease (e : Event) (h : e.isRelease = true) : silent e = true := by
  cases e <;> first | rfl | cases h

theorem Reporting.releases {s s' : StreamData} (h : s.Reporting) (hs : Adds Event.isRelease s s') : s'.Reporting :=
  h.adds (hs.mono silent_of_isRelease)

/-- Publishing the latest frame tells of everything unreported. -/
theorem Reporting.queued {s s' : StreamData} (h : s.Reporting) (hs : s'.transport.stream = s.transport.stream) {b : Buf}
    {k : Option Nat} {seq : Nat} (hlog : s'.log = .queued b k seq s.latestDamage :: s.log) : s'.Reporting := by
  have hw : s'.transport.width = s.transport.width := (congrArg Transport.width hs :)
  have hh : s'.transport.height = s.transport.height := (congrArg Transport.height hs :)
  refine ⟨?_, ?_, ?_⟩
  · rw [hw, hh]; exact h.sized
  · rw [hlog]
    rintro x _ y _ ⟨r, hr, _⟩
    cases hr
  · rw [hw, hh, hlog]
    refine ⟨fun x hx y hy hd => ?_, h.told⟩
    exact attachDamage_tells h.sized s.latestDamage x hx y hy (h.covers x hx y hy hd)

/-! ## Every step -/

/-- Copying the latest frame reports its damage, or is silent. -/
theorem Copying.reporting {s s' : StreamData} {source : Source} {file : File} {stride : Nat} {r : Bool}
    (h : Copying s source file stride s.latestDamage s' r) (hr : s.Reporting) : s'.Reporting := by
  cases h with
  | dropped => exact hr.adds (.of_log_eq rfl rfl rfl)
  | starved => exact hr
  | diverted _ b s₁ ht =>
    rcases takeBuffer_cases ht with ⟨rest, _, rfl⟩ | ⟨_, rest, _, rfl⟩
    · exact hr.adds (.of_log_eq rfl rfl rfl)
    · exact hr.adds (.of_log_eq rfl rfl rfl)
  | queued _ b s₁ ht =>
    have hcopied : ({ s with
        log := .copied source b stride s.transport.width s.transport.height :: s.log } : StreamData).Reporting :=
      hr.adds (.one rfl rfl rfl rfl)
    rcases takeBuffer_cases ht with ⟨rest, _, rfl⟩ | ⟨_, rest, _, rfl⟩
    · exact hcopied.queued rfl rfl
    · exact hcopied.queued rfl rfl

theorem Publishing.reporting {s s' : StreamData} {k : Nat} (h : Publishing s k s.latestDamage s') (hr : s.Reporting) :
    s'.Reporting := by
  cases h with
  | inFlight => exact hr.adds (.of_log_eq rfl rfl rfl)
  | forwarded => exact hr.queued rfl rfl
  | unmappable => exact hr.adds (.one rfl rfl rfl rfl)
  | copied _ slotFile _ s' r hc => exact (hc.reporting hr).adds (.one rfl rfl rfl rfl)

theorem Reporting.publishPending {s : StreamData} (hi : s.Tidy) (hr : s.Reporting) : s.publishPending.Reporting := by
  have done : ∀ s' : StreamData, s'.Reporting → ({ s' with pending := false } : StreamData).Reporting :=
    fun s' h => ⟨h.sized, h.covers, h.told⟩
  rcases publishPending_cases hi with ⟨_, he⟩ | ⟨_, _, he⟩ | ⟨_, _, damage, s', r, _, hl, hc, he⟩ |
    ⟨k, damage, s', _, hl, hpub, he⟩ <;> rw [he]
  · exact hr
  · exact done s hr
  · have hd : damage = s.latestDamage := by simp [latestDamage, hl, FramePayload.damage]
    subst hd
    cases r
    · exact hc.reporting hr
    · exact done s' (hc.reporting hr)
  · have hd : damage = s.latestDamage := by simp [latestDamage, hl, FramePayload.damage]
    subst hd
    exact done s' (hpub.reporting hr)

theorem Reporting.ipcFrame {s : StreamData} (hr : s.Reporting) {frame : StreamFrame} {answer : RestartAnswer}
    (hg : s.CoversMissed (.ipc (.ok (.frame frame)) answer)) : (s.ipcFrame frame).Reporting := by
  rcases s.ipcFrame_cases frame with he | he | ⟨payload, hid, hv, hadds⟩
  · rw [he]; exact hr
  · rw [he]; exact hr.adds (.one rfl rfl rfl rfl)
  · -- The new frame covers what was unreported before it, and itself.
    have hincl := hg hid (by simp [hv, Except.toBool])
    refine Reporting.releases (s := { s with latest := some payload, log := .delivered frame true :: s.log }) ?_ hadds
    refine ⟨hr.sized, fun x hx y hy hd => ?_, hr.told⟩
    simp only [latestDamage, Option.map_some, Option.getD_some, validateFrame_damage hv]
    rcases damaged_append.1 hd with hd | hd
    · exact hd
    · exact hincl x hx y hy hd

theorem not_damaged_nil (rects : List Rect) (w h : Nat) : Includes w h rects [] := by
  rintro x _ y _ ⟨r, hr, _⟩
  cases hr

theorem step_reporting {s s' : StreamData} {l : Label} (hi : s.Tidy) (hr : s.Reporting) (ho : s'.Offering)
    (hg : s.CoversMissed l) (hs : s.step l = some s') : s'.Reporting := by
  cases step_logs hi hs with
  | frame frame answer => exact hr.ipcFrame hg
  | adds _ _ h => exact hr.releases h
  | restarted _ _ hlatest hlog => exact ⟨ho.sized, hlog ▸ not_damaged_nil _ _ _, hlog ▸ trivial⟩
  | published late s₁ _ h hi₁ => exact (hr.releases h).publishPending hi₁

theorem init_reporting {s : StreamData} (h : Init s) : s.Reporting := by
  have ho := init_offering h
  obtain ⟨started, target, cursor, h⟩ := h
  simp only [start, Option.bind_eq_some_iff, Option.map_eq_some_iff] at h
  obtain ⟨_, _, t, _, rfl⟩ := h
  exact ⟨ho.sized, not_damaged_nil _ _ _, trivial⟩

/-- In every run in which a frame is accepted only when its damage includes all
that is unreported, every buffer tells of everything that changed since the one
before it. -/
theorem damage_covered {s : StreamData} (h : Reach Init (Guarded CoversMissed step) s) : s.DamageCovered := by
  have hr : (s.Tidy ∧ s.Offering) ∧ s.Reporting :=
    h.inv_guarded (I := fun s => (s.Tidy ∧ s.Offering) ∧ s.Reporting)
      (fun _ hs => ⟨⟨init_tidy hs, init_offering hs⟩, init_reporting hs⟩) fun s l s' hi hg hs => by
        have ho := (step_renews hi.1.1 hs).offering hi.1.2
        exact ⟨⟨step_tidy hi.1.1 hs, ho⟩, step_reporting hi.1.1 hi.2 ho hg hs⟩
  intro post pre b k seq damage hlog hpost
  exact Told.of_append post (hlog ▸ hr.2.told) hpost

/-! ## A frame replaced before it was published -/

def memfdFile : File where
  fd := 6
  regular := true
  len := some 16
  sealed := true
  mappable := true

/-- A 2x2 shared-memory stream. -/
def memfdStream : StreamStarted where
  streamId := 1
  width := 2
  height := 2
  format := .bgra8
  slots := none

def memfdFrame (damage : List Rect) : StreamFrame where
  streamId := 1
  sequence := 1
  width := 2
  height := 2
  stride := 8
  format := .bgra8
  damage := damage
  dropped := 0
  slot := none
  payload := .memfd memfdFile

def firstPixel : Rect := ⟨⟨0, 0⟩, ⟨1, 1⟩⟩
def topRow : Rect := ⟨⟨0, 0⟩, ⟨2, 1⟩⟩

/-- Two frames arrive before a cycle publishes the second. -/
def twoFrames (damage : List Rect) : List Label :=
  [.addBuffer 10 true true, .ipc (.ok (.frame (memfdFrame [firstPixel]))) ⟨false, none⟩,
   .ipc (.ok (.frame (memfdFrame damage))) ⟨false, none⟩, .process []]

theorem damage_covered_superset : ∃ s₀ s, start memfdStream (.output none) .hidden = some s₀ ∧
    exec (Guarded CoversMissed step) s₀ (twoFrames [topRow]) = some s ∧ s.DamageCovered := by
  have hrun : ∃ s₀ s, start memfdStream (.output none) .hidden = some s₀ ∧
      exec (Guarded CoversMissed step) s₀ (twoFrames [topRow]) = some s :=
    ⟨_, ((start memfdStream (.output none) .hidden).bind (exec (Guarded CoversMissed step) · (twoFrames [topRow]))).get
      (by decide +kernel), rfl, by decide +kernel⟩
  obtain ⟨s₀, s, h₀, he⟩ := hrun
  exact ⟨s₀, s, h₀, he, damage_covered ((Reach.init ⟨_, _, _, h₀⟩).exec he)⟩

/-- The first frame's damage is lost with it. -/
theorem replaced_damage_lost : ∃ s, Reach Init step s ∧ ¬ s.DamageCovered := by
  have hrun : ∃ s₀ s, start memfdStream (.output none) .hidden = some s₀ ∧ exec step s₀ (twoFrames []) = some s ∧
      (s.transport.width = 2 ∧ s.transport.height = 2) ∧
      s.log = [.queued 10 none 0 [], .copied .descriptor 10 8 2 2, .delivered (memfdFrame []) true,
        .delivered (memfdFrame [firstPixel]) true] :=
    ⟨_, ((start memfdStream (.output none) .hidden).bind (exec step · (twoFrames []))).get (by decide +kernel), rfl,
      by decide +kernel⟩
  obtain ⟨s₀, s, h₀, he, ⟨hw, hh⟩, hlog⟩ := hrun
  refine ⟨s, (Reach.init ⟨_, _, _, h₀⟩).exec he, fun hc => ?_⟩
  have htells := hc [] _ _ _ _ _ hlog (by simp)
  rw [hw, hh] at htells
  exact absurd (htells 0 (by decide) 0 (by decide) (by decide)) (by decide)

end StreamData

end AtriumPortal.Cast
