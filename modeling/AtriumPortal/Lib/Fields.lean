import AtriumPortal.Lib.Stream
/-!
# Fields behind their length

Big-endian numbers, and bytes with their length in front. A field is read back from any bytes
that start with it, and nothing else is read as it.
-/

namespace AtriumPortal.Lib.Fields

open AtriumPortal.Lib.Path (Bytes)
open AtriumPortal.Lib.Stream

/-- The lowest bytes of a number, the lowest last. -/
def toBe (width n : Nat) : Bytes := (toLe width n).reverse

def fromBe (bytes : Bytes) : Nat := fromLe bytes.reverse

@[simp] theorem length_toBe (width n : Nat) : (toBe width n).length = width := by
  rw [toBe, List.length_reverse, length_toLe]

theorem fromBe_toBe {width n : Nat} (h : n < 256 ^ width) : fromBe (toBe width n) = n := by
  rw [fromBe, toBe, List.reverse_reverse, fromLe_toLe h]

theorem toBe_fromBe (bytes : Bytes) : toBe bytes.length (fromBe bytes) = bytes := by
  rw [toBe, fromBe, ← List.length_reverse, toLe_fromLe, List.reverse_reverse]

theorem fromLe_lt (bytes : Bytes) : fromLe bytes < 256 ^ bytes.length := by
  induction bytes with
  | nil => exact Nat.one_pos
  | cons b bytes ih =>
    have hb : b.toNat < 256 := b.toNat_lt
    rw [fromLe, List.length_cons, Nat.pow_succ]
    omega

theorem fromBe_lt (bytes : Bytes) : fromBe bytes < 256 ^ bytes.length := by
  rw [← List.length_reverse]
  exact fromLe_lt bytes.reverse

/-- Some bytes with their length, of `width` bytes, in front. -/
def field (width : Nat) (bytes : Bytes) : Bytes := toBe width bytes.length ++ bytes

/-- The bytes of the field that a stream starts with, and what is behind it. -/
def readField (width : Nat) (stream : Bytes) : Option (Bytes × Bytes) :=
  let length := fromBe (stream.take width)
  if stream.length < width + length then none
  else some ((stream.drop width).take length, stream.drop (width + length))

theorem readField_field {width : Nat} {bytes : Bytes} (h : bytes.length < 256 ^ width) (rest : Bytes) :
    readField width (field width bytes ++ rest) = some (bytes, rest) := by
  have hlength := length_toBe width bytes.length
  simp only [readField, field, List.append_assoc, List.take_left' hlength, List.drop_left' hlength, fromBe_toBe h]
  rw [if_neg (by simp only [List.length_append, hlength]; omega), List.take_left' rfl, ← List.drop_drop,
    List.drop_left' hlength, List.drop_left' rfl]

theorem readField_eq_some {width : Nat} {stream bytes rest : Bytes} :
    readField width stream = some (bytes, rest) ↔ stream = field width bytes ++ rest ∧ bytes.length < 256 ^ width := by
  constructor
  · intro h
    unfold readField at h
    dsimp only at h
    split at h
    · cases h
    · next hlong =>
      cases h
      have hwidth : (stream.take width).length = width := List.length_take_of_le (by omega)
      have hsize : ((stream.drop width).take (fromBe (stream.take width))).length = fromBe (stream.take width) :=
        List.length_take_of_le (by rw [List.length_drop]; omega)
      have hhead := toBe_fromBe (stream.take width)
      have hlt := fromBe_lt (stream.take width)
      rw [hwidth] at hhead hlt
      refine ⟨?_, by rwa [hsize]⟩
      rw [field, hsize, hhead, List.append_assoc, ← List.drop_drop, List.take_append_drop, List.take_append_drop]
  · rintro ⟨rfl, h⟩
    exact readField_field h rest

end AtriumPortal.Lib.Fields
