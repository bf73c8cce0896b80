import AtriumPortal.Cast.Restarts
import AtriumPortal.Cast.Damage
import AtriumPortal.Lib.Slices
import Mathlib.Tactic.Ring
/-!
# The copied bytes

`copy_into_pool` and `copy_rows` on the bytes of the mapping and of the pool buffer, in
checked arithmetic of 64 bits. For every geometry that is streamed nothing overflows and
nothing outside is touched, and a buffer that is queued has the rows of the frame.
-/
open AtriumPortal.Ipc AtriumPortal.Lib.Runs AtriumPortal.Lib.Slices
open AtriumPortal.Lib.Path (Bytes)

namespace AtriumPortal.Cast

/-! ## `cast/copy.rs` -/

/-- The loop of `copy_rows`, for the `n` rows from `row` on. -/
def copyRowsLoop (src : Bytes) (srcStride rowBytes : Nat) : Nat → Nat → Bytes → Option Bytes
  | 0, _, dest => some dest
  | n + 1, row, dest => do
    let srcStart ← mulWord row srcStride
    let destStart ← mulWord row rowBytes
    let dest ← copySlice src srcStart dest destStart rowBytes
    copyRowsLoop src srcStride rowBytes n (row + 1) dest

/-- `copy_rows`; `none` is a panic. -/
def copyRows (src : Bytes) (srcStride : Nat) (dest : Bytes) (rowBytes height : Nat) : Option Bytes :=
  if srcStride = rowBytes then do
    let bytes ← mulWord height rowBytes
    copySlice src 0 dest 0 bytes
  else copyRowsLoop src srcStride rowBytes height 0 dest

/-- How `copy_into_pool` ends: the frame is dropped, held for want of a buffer, or queued
in a buffer with these bytes, chunk size and chunk stride. -/
inductive CopyOutcome where
  | dropped
  | starved
  | queued (dest : Bytes) (size : Nat) (stride : Int)
  deriving DecidableEq, Repr

/-- `copy_into_pool` on the bytes of the descriptor (`none`: it does not stat) and of the
data of the buffer it gets (`none` inside: a null pointer); `none` is a panic. -/
def copyPixels (src : Option Bytes) (mappable : Bool) (stride width height : Nat) (buffer : Option (Option Bytes)) :
    Option CopyOutcome := do
  let rowBytes ← mulWord width 4
  match src with
  | none => return .dropped
  | some src =>
    let last ← subWord height 1
    let body ← mulWord stride last
    let needed ← addWord body rowBytes
    if src.length < needed ∨ maxFrameBytes < needed ∨ mappable = false then return .dropped
    else
      match buffer with
      | none => return .starved
      | some none => return .dropped
      | some (some dest) =>
        let bytes ← mulWord height rowBytes
        if dest.length < bytes then return .dropped
        else
          let dest ← copyRows src stride dest rowBytes height
          return .queued dest (bytes % 2 ^ 32) (asI32 rowBytes)

/-! ## Rows -/

/-- Every row of the frame is in its packed place. -/
structure Packed (src : Bytes) (stride : Nat) (dest : Bytes) (rowBytes height : Nat) : Prop where
  read : ∀ row < height, row * stride + rowBytes ≤ src.length
  written : ∀ row < height, (row + 1) * rowBytes ≤ dest.length
  row : ∀ row < height, (dest.drop (row * rowBytes)).take rowBytes = (src.drop (row * stride)).take rowBytes

theorem copyRowsLoop_rows (src : Bytes) (stride rowBytes n row : Nat) (dest : Bytes)
    (hsrc : ∀ r < row + n, r * stride + rowBytes ≤ src.length ∧ r * stride + rowBytes < 2 ^ 64)
    (hdest : (row + n) * rowBytes ≤ dest.length) (hword : (row + n) * rowBytes < 2 ^ 64) :
    ∃ dest', copyRowsLoop src stride rowBytes n row dest = some dest' ∧ dest'.length = dest.length ∧
      (∀ r, row ≤ r → r < row + n → ∀ i < rowBytes, dest'[r * rowBytes + i]? = src[r * stride + i]?) ∧
      ∀ j < row * rowBytes, dest'[j]? = dest[j]? := by
  induction n generalizing row dest with
  | zero => exact ⟨dest, rfl, rfl, fun r hle hlt => absurd hlt (Nat.not_lt.mpr hle), fun _ _ => rfl⟩
  | succ n ih =>
    obtain ⟨hread, hreadw⟩ := hsrc row (by omega)
    have hplace : row * rowBytes + rowBytes ≤ (row + (n + 1)) * rowBytes := by
      rw [← Nat.succ_mul]
      exact Nat.mul_le_mul_right _ (by omega)
    have hplacew : row * rowBytes + rowBytes < 2 ^ 64 := Nat.lt_of_le_of_lt hplace hword
    obtain ⟨dest₁, hcopy, hdest₁⟩ := copySlice_copied src (row * stride) dest (row * rowBytes) rowBytes hread
      (Nat.le_trans hplace hdest) hreadw hplacew
    rw [show row + (n + 1) = row + 1 + n by omega] at hsrc hdest hword
    obtain ⟨dest', hloop, hlen, hrows, hkept⟩ := ih (row + 1) dest₁ hsrc (hdest₁.length.symm ▸ hdest) hword
    refine ⟨dest', ?_, hlen.trans hdest₁.length, fun r hle hlt i hi => ?_, fun j hj => ?_⟩
    · simp only [copyRowsLoop, mulWord_eq (Nat.lt_of_le_of_lt (Nat.le_add_right _ _) hreadw),
        mulWord_eq (Nat.lt_of_le_of_lt (Nat.le_add_right _ _) hplacew), Option.bind_eq_bind, Option.bind_some, hcopy,
        hloop]
    · rcases Nat.lt_or_eq_of_le hle with hlater | rfl
      · exact hrows r hlater (by omega) i hi
      · rw [hkept _ (by rw [Nat.succ_mul]; omega), hdest₁.range i hi]
    · rw [hkept j (by rw [Nat.succ_mul]; omega), hdest₁.rest j (.inl hj)]

/-- Rows that a mapping and a buffer have room for are copied, packed or not. -/
theorem copyRows_packed {src dest : Bytes} {stride rowBytes height : Nat}
    (hsrc : stride * (height - 1) + rowBytes ≤ src.length) (hdest : height * rowBytes ≤ dest.length)
    (hsrcw : stride * (height - 1) + rowBytes < 2 ^ 64) (hdestw : height * rowBytes < 2 ^ 64) (hpos : 0 < height) :
    ∃ dest', copyRows src stride dest rowBytes height = some dest' ∧ dest'.length = dest.length ∧
      Packed src stride dest' rowBytes height := by
  have hlast : ∀ r < height, r * stride + rowBytes ≤ stride * (height - 1) + rowBytes := by
    intro r hr
    rw [Nat.mul_comm r]
    exact Nat.add_le_add_right (Nat.mul_le_mul_left _ (by omega)) _
  have hrows : ∀ r < height, (r + 1) * rowBytes ≤ height * rowBytes := fun r hr => Nat.mul_le_mul_right _ hr
  unfold copyRows
  split
  next hpacked =>
    subst hpacked
    have hall : stride * (height - 1) + stride = height * stride := by
      rw [Nat.mul_comm stride, ← Nat.succ_mul, Nat.succ_eq_add_one, Nat.sub_add_cancel hpos]
    rw [hall] at hsrc
    obtain ⟨dest', hcopy, hdest'⟩ := copySlice_copied src 0 dest 0 (height * stride) (by omega) (by omega)
      (by omega) (by omega)
    refine ⟨dest', by simp only [mulWord_eq hdestw, Option.bind_eq_bind, Option.bind_some, hcopy], hdest'.length, ?_⟩
    refine ⟨fun r hr => ?_, fun r hr => ?_, fun r hr => take_drop_eq fun i hi => ?_⟩
    · exact Nat.le_trans (hlast r hr) (hall ▸ hsrc)
    · exact Nat.le_trans (hrows r hr) (hdest'.length.symm ▸ hdest)
    · have hin : r * stride + i < height * stride := by
        have := hrows r hr
        rw [Nat.succ_mul] at this
        omega
      simpa using hdest'.range _ hin
  next =>
    obtain ⟨dest', hloop, hlen, hrow, -⟩ := copyRowsLoop_rows src stride rowBytes height 0 dest
      (fun r hr => ⟨Nat.le_trans (hlast r (by omega)) hsrc, Nat.lt_of_le_of_lt (hlast r (by omega)) hsrcw⟩)
      (by rwa [Nat.zero_add]) (by rwa [Nat.zero_add])
    refine ⟨dest', hloop, hlen, fun r hr => Nat.le_trans (hlast r hr) hsrc, fun r hr => ?_, fun r hr => ?_⟩
    · exact Nat.le_trans (hrows r hr) (hlen.symm ▸ hdest)
    · exact take_drop_eq (hrow r (Nat.zero_le r) (by omega))

/-! ## A whole copy -/

/-- Of a streamed geometry the numbers are far below a word. -/
theorem frame_words {width height stride : Nat} (hframe : (frameLen width height).isSome = true)
    (hstride : stride < 2 ^ 32) :
    0 < height ∧ height * (width * 4) ≤ maxFrameBytes ∧ width * 4 ≤ maxFrameBytes ∧
      stride * (height - 1) + width * 4 < 2 ^ 64 := by
  unfold frameLen at hframe
  split at hframe
  · cases hframe
  next hn =>
    simp only [not_or, Nat.not_lt] at hn
    obtain ⟨hwidth, hheight, hbytes⟩ := hn
    have hall : height * (width * 4) ≤ maxFrameBytes := by
      rw [Nat.mul_comm height, Nat.mul_right_comm]
      exact hbytes
    have hrow : 1 * (width * 4) ≤ height * (width * 4) := Nat.mul_le_mul_right _ (Nat.pos_of_ne_zero hheight)
    have hrows : height * 1 ≤ height * (width * 4) := Nat.mul_le_mul_left _ (by omega)
    have hskip : stride * (height - 1) ≤ 2 ^ 32 * maxFrameBytes := Nat.mul_le_mul (Nat.le_of_lt hstride) (by omega)
    unfold maxFrameBytes at *
    exact ⟨Nat.pos_of_ne_zero hheight, hall, by omega, by omega⟩

/-- Nothing overflows: the copy is the checks of its lengths, and the rows. -/
theorem copyPixels_eq {width height stride : Nat} (hframe : (frameLen width height).isSome = true)
    (hstride : stride < 2 ^ 32) (src : Option Bytes) (mappable : Bool) (buffer : Option (Option Bytes)) :
    copyPixels src mappable stride width height buffer =
      match src with
      | none => some .dropped
      | some src =>
        if src.length < stride * (height - 1) + width * 4 ∨ maxFrameBytes < stride * (height - 1) + width * 4 ∨
          mappable = false then some .dropped
        else match buffer with
          | none => some .starved
          | some none => some .dropped
          | some (some dest) =>
            if dest.length < height * (width * 4) then some .dropped
            else (copyRows src stride dest (width * 4) height).bind fun dest =>
              some (.queued dest (height * (width * 4)) (width * 4 : Nat)) := by
  obtain ⟨hpos, hall, hrow, hneeded⟩ := frame_words hframe hstride
  unfold maxFrameBytes at hall hrow
  have hsize : height * (width * 4) % 2 ^ 32 = height * (width * 4) := Nat.mod_eq_of_lt (by omega)
  have hi32 : asI32 (width * 4) = (width * 4 : Nat) := asI32_of_le (by unfold i32Max; omega)
  have hbody : stride * (height - 1) < 2 ^ 64 := by omega
  simp only [copyPixels, mulWord_eq (show width * 4 < 2 ^ 64 by omega), subWord_eq hpos, mulWord_eq hbody,
    addWord_eq hneeded, mulWord_eq (show height * (width * 4) < 2 ^ 64 by omega), hsize, hi32, Option.bind_eq_bind,
    Option.bind_some, Option.pure_def]

/-- A queued buffer has the frame of this geometry, packed, and its chunk says so. -/
structure Exact (src : Option Bytes) (stride width height : Nat) (buffer : Option (Option Bytes)) (dest' : Bytes)
    (size : Nat) (chunkStride : Int) : Prop where
  rows : ∃ bytes dest, src = some bytes ∧ buffer = some (some dest) ∧ dest'.length = dest.length ∧
    Packed bytes stride dest' (width * 4) height
  size : size = 4 * width * height
  stride : chunkStride = (4 * width : Nat)

theorem copyPixels_exact {width height stride : Nat} (hframe : (frameLen width height).isSome = true)
    (hstride : stride < 2 ^ 32) (src : Option Bytes) (mappable : Bool) (buffer : Option (Option Bytes)) :
    ∃ outcome, copyPixels src mappable stride width height buffer = some outcome ∧
      ∀ dest' size chunkStride, outcome = .queued dest' size chunkStride →
        Exact src stride width height buffer dest' size chunkStride := by
  obtain ⟨hpos, hall, -, hneeded⟩ := frame_words hframe hstride
  rw [copyPixels_eq hframe hstride]
  cases src with
  | none => exact ⟨.dropped, rfl, nofun⟩
  | some src =>
    dsimp only
    split
    · exact ⟨.dropped, rfl, nofun⟩
    next hread =>
      simp only [not_or, Nat.not_lt] at hread
      match buffer with
      | none => exact ⟨.starved, rfl, nofun⟩
      | some none => exact ⟨.dropped, rfl, nofun⟩
      | some (some dest) =>
        dsimp only
        split
        · exact ⟨.dropped, rfl, nofun⟩
        next hroom =>
          have hallw : height * (width * 4) < 2 ^ 64 := Nat.lt_of_le_of_lt hall (by decide)
          obtain ⟨dest', hcopy, hlen, hpacked⟩ :=
            copyRows_packed hread.1 (Nat.le_of_not_lt hroom) hneeded hallw hpos
          refine ⟨_, by rw [hcopy]; rfl, fun d size chunkStride hq => ?_⟩
          cases hq
          exact ⟨⟨src, dest, rfl, rfl, hlen, hpacked⟩, by ring, by rw [Nat.mul_comm]⟩

/-! ## The copies of a cast -/

namespace StreamData

/-- The bytes that a copy works on are those of the state: the descriptor's length and
mapping, and the memory of the buffer it gets, with the capacity that buffer has. -/
structure HasBytes (s : StreamData) (file : File) (src : Option Bytes) (buffer : Option (Option Bytes)) : Prop where
  file : src.map List.length = file.len
  buffer : buffer.map (·.map List.length) = s.takeBuffer.map fun t => t.2.poolMem.lookup t.1

/-- What a copy does to the state, by its outcome. -/
def Follows (s s' : StreamData) (taken : Bool) : CopyOutcome → Prop
  | .dropped =>
    taken = true ∧ s'.droppedFrames = s.droppedFrames + 1 ∧ s'.sequence = s.sequence ∧ s'.consumer = s.consumer
  | .starved => taken = false ∧ s' = s
  | .queued _ _ _ => taken = true ∧ s'.droppedFrames = s.droppedFrames ∧ s'.sequence = s.sequence + 1 ∧
    ∃ b, s'.consumer = b :: s.consumer

theorem takeBuffer_counts {s s₁ : StreamData} {b : Buf} (h : s.takeBuffer = some (b, s₁)) :
    s₁.droppedFrames = s.droppedFrames ∧ s₁.sequence = s.sequence ∧ s₁.consumer = s.consumer := by
  rcases takeBuffer_cases h with ⟨rest, -, rfl⟩ | ⟨-, rest, -, rfl⟩ <;> exact ⟨rfl, rfl, rfl⟩

theorem readable_iff {file : File} {src : Bytes} {stride width height : Nat} (h : file.len = some src.length) :
    readable file stride width height = false ↔
      (src.length < stride * (height - 1) + width * 4 ∨ maxFrameBytes < stride * (height - 1) + width * 4 ∨
        file.mappable = false) := by
  simp only [readable, h, Bool.and_eq_false_iff, decide_eq_false_iff_not, Nat.not_le, or_assoc]

/-- The state follows the bytes: a buffer is queued exactly where the bytes are copied. -/
theorem copyIntoPool_follows {s : StreamData} {source : Source} {file : File} {stride : Nat} {damage : List Rect}
    {src : Option Bytes} {buffer : Option (Option Bytes)} {outcome : CopyOutcome}
    (hframe : (frameLen s.transport.width s.transport.height).isSome = true) (hstride : stride < 2 ^ 32)
    (hmem : s.HasBytes file src buffer)
    (h : copyPixels src file.mappable stride s.transport.width s.transport.height buffer = some outcome) :
    Follows s (s.copyIntoPool source file stride damage).1 (s.copyIntoPool source file stride damage).2 outcome := by
  rw [copyPixels_eq hframe hstride] at h
  unfold copyIntoPool
  dsimp only
  cases src with
  | none =>
    cases h
    have hlen : file.len = none := hmem.file.symm
    rw [readable, hlen]
    exact ⟨rfl, rfl, rfl, rfl⟩
  | some src =>
    have hlen : file.len = some src.length := hmem.file.symm
    dsimp only at h
    split at h
    next hno =>
      cases h
      rw [(readable_iff hlen).mpr hno]
      exact ⟨rfl, rfl, rfl, rfl⟩
    next hread =>
      have hreadable : readable file stride s.transport.width s.transport.height = true := by
        rw [← Bool.not_eq_false, readable_iff hlen]
        exact hread
      have hbuffer := hmem.buffer
      rw [hreadable]
      simp only [Bool.not_true, Bool.false_eq_true, if_false]
      cases ht : s.takeBuffer with
      | none =>
        rw [ht, Option.map_none, Option.map_eq_none_iff] at hbuffer
        subst hbuffer
        cases h
        exact ⟨rfl, rfl⟩
      | some t =>
        obtain ⟨b, s₁⟩ := t
        rw [ht] at hbuffer
        obtain ⟨dest, rfl, hdest⟩ := Option.map_eq_some_iff.mp hbuffer
        obtain ⟨hdropped, hseq, hconsumer⟩ := takeBuffer_counts ht
        dsimp only at hdest ⊢
        rw [← hdest]
        cases dest with
        | none =>
          cases h
          exact ⟨rfl, congrArg (· + 1) hdropped, hseq, hconsumer⟩
        | some dest =>
          dsimp only [Option.map_some] at h ⊢
          split at h
          next hroom =>
            cases h
            rw [if_pos hroom]
            exact ⟨rfl, congrArg (· + 1) hdropped, hseq, hconsumer⟩
          next hroom =>
            obtain ⟨dest', -, hq⟩ := Option.bind_eq_some_iff.mp h
            cases hq
            rw [if_neg hroom]
            exact ⟨rfl, hdropped, congrArg (· + 1) hseq, b, congrArg (b :: ·) hconsumer⟩

/-- For every geometry a run streams, every source and every buffer, a copy stays within
64 bits, the mapping and the buffer, and is exact where it is queued; and the cast's state
follows it, wherever the cast has these bytes. -/
theorem copies_exact {s : StreamData} (h : Reach Init step s) (stride : UInt32) (src : Option Bytes) (mappable : Bool)
    (buffer : Option (Option Bytes)) :
    ∃ outcome,
      copyPixels src mappable stride.toNat s.transport.width s.transport.height buffer = some outcome ∧
      (∀ dest' size chunkStride, outcome = .queued dest' size chunkStride →
        Exact src stride.toNat s.transport.width s.transport.height buffer dest' size chunkStride) ∧
      ∀ (now : StreamData) (source : Source) (file : File) (damage : List Rect),
        now.transport.width = s.transport.width → now.transport.height = s.transport.height →
        file.mappable = mappable → now.HasBytes file src buffer →
        Follows now (now.copyIntoPool source file stride.toNat damage).1
          (now.copyIntoPool source file stride.toNat damage).2
          outcome := by
  have hframe := (reach_offering h).2.sized
  obtain ⟨outcome, hcopy, hexact⟩ := copyPixels_exact hframe stride.toNat_lt src mappable buffer
  refine ⟨outcome, hcopy, hexact, fun now source file damage hw hh hm hmem => ?_⟩
  subst hm
  rw [← hw, ← hh] at hframe hcopy
  exact copyIntoPool_follows hframe stride.toNat_lt hmem hcopy

/-! ## Two rows with padding -/

/-- Rows of two pixels, each followed by four bytes that are not part of it; the last row
ends with its pixels. -/
def paddedRows : Bytes := [1, 1, 1, 1, 2, 2, 2, 2, 0, 0, 0, 0, 3, 3, 3, 3, 4, 4, 4, 4]

theorem copies_exact_padded : ∃ s, Init s ∧ s.transport.width = 2 ∧ s.transport.height = 2 ∧
    Exact (some paddedRows) 12 2 2 (some (some (List.replicate 16 0)))
      [1, 1, 1, 1, 2, 2, 2, 2, 3, 3, 3, 3, 4, 4, 4, 4] 16 8 := by
  obtain ⟨s, hs⟩ : ∃ s, start ⟨3, 2, 2, .bgra8, none⟩ (.output none) .hidden = some s := ⟨_, rfl⟩
  have hinit : Init s := ⟨_, _, _, hs⟩
  have hsize : s.transport.width = 2 ∧ s.transport.height = 2 := by
    cases hs
    exact ⟨rfl, rfl⟩
  obtain ⟨outcome, hcopy, hexact, -⟩ :=
    copies_exact (.init hinit) 12 (some paddedRows) true (some (some (List.replicate 16 0)))
  rw [hsize.1, hsize.2] at hcopy hexact
  refine ⟨s, hinit, hsize.1, hsize.2, hexact _ _ _ (Option.some.inj (hcopy.symm.trans ?_))⟩
  decide +kernel

end StreamData

end AtriumPortal.Cast
