import AtriumPortal.Lib.Path
import Mathlib.Algebra.Group.Nat.Defs
/-!
# Checked copies between byte slices

Arithmetic on 64-bit words and copies between slices, where an overflow, a range outside
a slice or an underflow is `none`. A copy changes the bytes of its range to those of the
source's and no others.
-/

namespace AtriumPortal.Lib.Slices

open AtriumPortal.Lib.Path (Bytes)

/-! ## Words -/

def addWord (a b : Nat) : Option Nat := if a + b < 2 ^ 64 then some (a + b) else none

def subWord (a b : Nat) : Option Nat := if b ≤ a then some (a - b) else none

def mulWord (a b : Nat) : Option Nat := if a * b < 2 ^ 64 then some (a * b) else none

theorem addWord_eq {a b : Nat} (h : a + b < 2 ^ 64) : addWord a b = some (a + b) := if_pos h

theorem subWord_eq {a b : Nat} (h : b ≤ a) : subWord a b = some (a - b) := if_pos h

theorem mulWord_eq {a b : Nat} (h : a * b < 2 ^ 64) : mulWord a b = some (a * b) := if_pos h

/-! ## Copies -/

/-- `dest[at..at + n].copy_from_slice(&src[start..start + n])`. -/
def copySlice (src : Bytes) (start : Nat) (dest : Bytes) (place n : Nat) : Option Bytes :=
  match addWord start n, addWord place n with
  | some srcEnd, some destEnd =>
    if srcEnd ≤ src.length ∧ destEnd ≤ dest.length then
      some (dest.take place ++ (src.drop start).take n ++ dest.drop destEnd)
    else none
  | _, _ => none

/-- What a copy leaves: the range of the source in its place, and the rest as it was. -/
structure Copied (src : Bytes) (start : Nat) (dest : Bytes) (place n : Nat) (dest' : Bytes) : Prop where
  length : dest'.length = dest.length
  range : ∀ i < n, dest'[place + i]? = src[start + i]?
  rest : ∀ j, j < place ∨ place + n ≤ j → dest'[j]? = dest[j]?

theorem copySlice_copied (src : Bytes) (start : Nat) (dest : Bytes) (place n : Nat) (hs : start + n ≤ src.length)
    (hd : place + n ≤ dest.length) (hsw : start + n < 2 ^ 64) (hdw : place + n < 2 ^ 64) :
    ∃ dest', copySlice src start dest place n = some dest' ∧ Copied src start dest place n dest' := by
  have hplace : (dest.take place).length = place := List.length_take_of_le (by omega)
  have hn : ((src.drop start).take n).length = n := List.length_take_of_le (by simp; omega)
  refine ⟨dest.take place ++ (src.drop start).take n ++ dest.drop (place + n), ?_, ?_, ?_, ?_⟩
  · simp only [copySlice, addWord_eq hsw, addWord_eq hdw, if_pos (And.intro hs hd)]
  · simp only [List.length_append, hplace, hn, List.length_drop]
    omega
  · intro i hi
    rw [List.append_assoc, List.getElem?_append_right (by omega), hplace, Nat.add_sub_cancel_left,
      List.getElem?_append_left (by omega), List.getElem?_take_of_lt hi, List.getElem?_drop]
  · intro j hj
    rcases hj with hj | hj
    · rw [List.append_assoc, List.getElem?_append_left (by omega), List.getElem?_take_of_lt hj]
    · rw [List.getElem?_append_right (by simp only [List.length_append, hplace, hn]; omega), List.length_append, hplace,
        hn, List.getElem?_drop, Nat.add_sub_cancel' hj]

/-- Ranges that agree byte for byte. -/
theorem take_drop_eq {xs ys : Bytes} {a b n : Nat} (h : ∀ i < n, xs[a + i]? = ys[b + i]?) :
    (xs.drop a).take n = (ys.drop b).take n := by
  refine List.ext_getElem? fun i => ?_
  rcases Nat.lt_or_ge i n with hi | hi
  · rw [List.getElem?_take_of_lt hi, List.getElem?_take_of_lt hi, List.getElem?_drop, List.getElem?_drop, h i hi]
  · rw [List.getElem?_take_eq_none hi, List.getElem?_take_eq_none hi]

end AtriumPortal.Lib.Slices
