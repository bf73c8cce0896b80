import Mathlib.Algebra.Group.Nat.Defs
/-!
# Doubles

IEEE 754 doubles as their bits, with the equality of the standard: not a number equals
nothing, and the two zeros are equal. `ofRatio` is a quotient of naturals up to one, rounded
to nearest, ties to even.
-/

namespace AtriumPortal.Lib

structure F64 where
  bits : UInt64
  deriving DecidableEq, Repr

namespace F64

/-- The bits without the sign. -/
def magnitude (x : F64) : UInt64 := x.bits &&& 0x7fffffffffffffff

def isNaN (x : F64) : Bool := 0x7ff0000000000000 < x.magnitude

def isZero (x : F64) : Bool := x.magnitude = 0

instance : BEq F64 where
  beq x y := !x.isNaN && !y.isNaN && (x.bits = y.bits || (x.isZero && y.isZero))

def minusOne : F64 := ⟨0xbff0000000000000⟩

/-- `n / d` for `n ≤ d` and a result that is not subnormal. -/
def ofRatio (n d : Nat) : F64 :=
  if n = 0 then ⟨0⟩
  else
    -- the least shift that brings `n` to `d` or above
    let shift := if n = d then 0 else Nat.log2 ((d + n - 1) / n - 1) + 1
    let scaled := n * 2 ^ (52 + shift)
    let quotient := scaled / d
    let rest := scaled % d
    let rounded := if d < 2 * rest ∨ (2 * rest = d ∧ quotient % 2 = 1) then quotient + 1 else quotient
    ⟨UInt64.ofNat ((1022 - shift) * 2 ^ 52 + rounded)⟩

example : ofRatio 51 255 = ⟨0x3fc999999999999a⟩ := by decide

variable {x y z : F64}

theorem beq_iff : (x == y) = true ↔
    x.isNaN = false ∧ y.isNaN = false ∧ (x.bits = y.bits ∨ x.isZero = true ∧ y.isZero = true) := by
  simp only [BEq.beq, Bool.and_eq_true, Bool.not_eq_true', Bool.or_eq_true, decide_eq_true_eq, and_assoc]

/-- Not a number is the one double that is not itself. -/
theorem beq_self : (x == x) = true ↔ x.isNaN = false := by simp [beq_iff]

theorem beq_trans (h : (x == y) = true) (h' : (y == z) = true) : (x == z) = true := by
  rw [beq_iff] at *
  obtain ⟨hx, -, hxy⟩ := h
  obtain ⟨-, hz, hyz⟩ := h'
  refine ⟨hx, hz, ?_⟩
  rcases hxy with hxy | ⟨hx0, hy0⟩
  · obtain rfl : x = y := congrArg F64.mk hxy
    exact hyz
  · rcases hyz with hyz | ⟨-, hz0⟩
    · obtain rfl : y = z := congrArg F64.mk hyz
      exact .inr ⟨hx0, hy0⟩
    · exact .inr ⟨hx0, hz0⟩

end F64

end AtriumPortal.Lib
