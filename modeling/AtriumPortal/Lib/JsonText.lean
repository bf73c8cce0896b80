import AtriumPortal.Lib.Text
import Mathlib.Algebra.Group.Nat.Defs
import Mathlib.Data.List.TakeDrop
/-!
# JSON texts

The compact JSON that `serde_json` writes, character by character: strings with their
escapes, numbers in decimal, fixed text between them; and readers that take off what was
written. What is written stands on one line, and an escape takes at most six bytes for one.
-/

namespace AtriumPortal.Lib.JsonText

/-! ## Writing -/

def hexDigit (n : Nat) : Char := Nat.digitChar n

def escapeChar (c : Char) : List Char :=
  if c = '"' then ['\\', '"']
  else if c = '\\' then ['\\', '\\']
  else if c = '\n' then ['\\', 'n']
  else if c = '\r' then ['\\', 'r']
  else if c = '\t' then ['\\', 't']
  else if c.toNat = 8 then ['\\', 'b']
  else if c.toNat = 12 then ['\\', 'f']
  else if c.toNat < 32 then ['\\', 'u', '0', '0', hexDigit (c.toNat / 16), hexDigit (c.toNat % 16)]
  else [c]

/-- The characters of a string, and the closing quote. -/
def quoted (s : String) : List Char := s.toList.flatMap escapeChar ++ ['"']

/-- Fixed text. Proofs never look into it. -/
@[irreducible] def text (s : String) : List Char := s.toList

/-- A bracketed list after its opening bracket: the elements after the first. -/
def writeMore {α : Type} (write : α → List Char) : List α → List Char
  | [] => [']']
  | a :: l => ',' :: write a ++ writeMore write l

def writeList {α : Type} (write : α → List Char) : List α → List Char
  | [] => [']']
  | a :: l => write a ++ writeMore write l

def writeOption {α : Type} (write : α → List Char) : Option α → List Char
  | none => text "null"
  | some a => write a

def writeBool (b : Bool) : List Char := text (if b then "true" else "false")

/-! ## Reading -/

abbrev Reader (α : Type) : Type := List Char → Option (α × List Char)

def hexValue (c : Char) : Nat := if c.isDigit then c.toNat - 48 else c.toNat - 87

/-- What follows `expected`. -/
def skip (expected : List Char) (input : List Char) : Option (List Char) :=
  if expected.isPrefixOf input then some (input.drop expected.length) else none

/-- The rest of a string, up to its closing quote. -/
def readQuoted : Reader (List Char)
  | '"' :: rest => some ([], rest)
  | '\\' :: 'u' :: '0' :: '0' :: high :: low :: rest =>
    (readQuoted rest).map fun (cs, rest) => (Char.ofNat (hexValue high * 16 + hexValue low) :: cs, rest)
  | '\\' :: c :: rest =>
    let unescaped :=
      if c = 'n' then '\n' else if c = 'r' then '\r' else if c = 't' then '\t'
      else if c = 'b' then Char.ofNat 8 else if c = 'f' then Char.ofNat 12 else c
    (readQuoted rest).map fun (cs, rest) => (unescaped :: cs, rest)
  | c :: rest => (readQuoted rest).map fun (cs, rest) => (c :: cs, rest)
  | [] => none

def readString : Reader String := fun input => (readQuoted input).map fun (cs, rest) => (String.ofList cs, rest)

def readNat : Reader Nat := fun input =>
  match input.takeWhile Char.isDigit with
  | [] => none
  | digits => some (Nat.ofDigitChars 10 digits 0, input.dropWhile Char.isDigit)

/-- Elements until the bracket closes; an element takes some of the input. -/
def readMore {α : Type} (read : Reader α) : Nat → Reader (List α)
  | _, ']' :: rest => some ([], rest)
  | fuel + 1, ',' :: input => do
    let (a, rest) ← read input
    let (l, rest) ← readMore read fuel rest
    return (a :: l, rest)
  | _, _ => none

def readList {α : Type} (read : Reader α) : Reader (List α) := fun input =>
  if input.head? = some ']' then some ([], input.tail)
  else do
    let (a, rest) ← read input
    let (l, rest) ← readMore read rest.length rest
    return (a :: l, rest)

/-- A number that fits its type. -/
def readBelow (limit : Nat) : Reader Nat := fun input => (readNat input).filter (·.1 < limit)

def readOption {α : Type} (read : Reader α) : Reader (Option α) := fun input =>
  match skip (text "null") input with
  | some rest => some (none, rest)
  | none => (read input).map fun (a, rest) => (some a, rest)

def readBool : Reader Bool := fun input =>
  match skip (text "true") input with
  | some rest => some (true, rest)
  | none => (skip (text "false") input).map fun rest => (false, rest)

/-! ## Reading what was written -/

@[simp] theorem skip_append (expected rest : List Char) : skip expected (expected ++ rest) = some rest := by
  simp [skip]

@[simp] theorem skip_cons_append (c : Char) (expected rest : List Char) :
    skip (c :: expected) (c :: (expected ++ rest)) = some rest :=
  skip_append (c :: expected) rest

@[simp] theorem skip_singleton (c : Char) (rest : List Char) : skip [c] (c :: rest) = some rest := skip_append [c] rest

theorem hexValue_hexDigit : ∀ n < 16, hexValue (hexDigit n) = n := by decide

theorem readQuoted_escapeChar (c : Char) (input : List Char) :
    readQuoted (escapeChar c ++ input) = (readQuoted input).map fun (cs, rest) => (c :: cs, rest) := by
  unfold escapeChar
  split
  · next h => subst h; simp [readQuoted]
  split
  · next h => subst h; simp [readQuoted]
  split
  · next h => subst h; simp [readQuoted]
  split
  · next h => subst h; simp [readQuoted]
  split
  · next h => subst h; simp [readQuoted]
  split
  · next h =>
    obtain rfl : c = Char.ofNat 8 := by rw [← h, Char.ofNat_toNat]
    simp [readQuoted]
  split
  · next h =>
    obtain rfl : c = Char.ofNat 12 := by rw [← h, Char.ofNat_toNat]
    simp [readQuoted]
  split
  · next h =>
    have hhigh := hexValue_hexDigit (c.toNat / 16) (by omega)
    have hlow := hexValue_hexDigit (c.toNat % 16) (by omega)
    have hsum : c.toNat / 16 * 16 + c.toNat % 16 = c.toNat := by omega
    simp [readQuoted, hhigh, hlow, hsum]
  · next hquote hback _ _ _ _ _ _ =>
    rw [List.singleton_append, readQuoted.eq_def]
    split <;> simp_all

theorem readString_quoted (s : String) (rest : List Char) : readString (quoted s ++ rest) = some (s, rest) := by
  have h : ∀ cs : List Char, readQuoted (cs.flatMap escapeChar ++ '"' :: rest) = some (cs, rest) := by
    intro cs
    induction cs with
    | nil => simp [readQuoted]
    | cons c cs ih => rw [List.flatMap_cons, List.append_assoc, readQuoted_escapeChar, ih]; rfl
  simp [readString, quoted, h]

/-- Digits end where another character stands. -/
theorem readNat_toDigits (n : Nat) {c : Char} (hc : c.isDigit = false) (rest : List Char) :
    readNat (Nat.toDigits 10 n ++ c :: rest) = some (n, c :: rest) := by
  have hd : ∀ d ∈ Nat.toDigits 10 n, d.isDigit = true := fun d hd =>
    Nat.isDigit_of_mem_toDigits (by decide) (by decide) hd
  have htake : (Nat.toDigits 10 n ++ c :: rest).takeWhile Char.isDigit = Nat.toDigits 10 n := by
    simp [List.takeWhile_append_of_pos hd, hc]
  have hdrop : (Nat.toDigits 10 n ++ c :: rest).dropWhile Char.isDigit = c :: rest := by
    simp [List.dropWhile_append_of_pos hd, hc]
  unfold readNat
  rw [htake, hdrop]
  split
  · next h => exact absurd h Nat.toDigits_ne_nil
  · rw [Nat.ofDigitChars_toDigits (by decide) (by decide)]

theorem readBelow_toDigits {n limit : Nat} (hn : n < limit) {c : Char} (hc : c.isDigit = false) (rest : List Char) :
    readBelow limit (Nat.toDigits 10 n ++ c :: rest) = some (n, c :: rest) := by
  simp [readBelow, readNat_toDigits n hc, hn]

theorem head?_toDigits (n : Nat) (rest : List Char) : ∃ d, (Nat.toDigits 10 n ++ rest).head? = some d ∧ d.isDigit = true := by
  obtain ⟨d, digits, hd⟩ := List.exists_cons_of_ne_nil (Nat.toDigits_ne_nil (n := n) (b := 10))
  exact ⟨d, by rw [hd]; rfl, Nat.isDigit_of_mem_toDigits (by decide) (by decide) (hd ▸ List.mem_cons_self)⟩

section

variable {α : Type} {write : α → List Char} {read : Reader α} {l : List α}

theorem length_writeMore (l : List α) : l.length ≤ (writeMore write l).length := by
  induction l with
  | nil => exact Nat.zero_le _
  | cons a l ih =>
    rw [writeMore, List.cons_append, List.length_cons, List.length_cons, List.length_append]
    omega

theorem readMore_write (h : ∀ a ∈ l, ∀ rest, read (write a ++ rest) = some (a, rest)) (rest : List Char) {fuel : Nat}
    (hf : l.length ≤ fuel) : readMore read fuel (writeMore write l ++ rest) = some (l, rest) := by
  induction l generalizing fuel with
  | nil => cases fuel <;> rfl
  | cons a l ih =>
    rw [List.forall_mem_cons] at h
    obtain ⟨fuel, rfl⟩ : ∃ n, fuel = n + 1 := ⟨fuel - 1, by rw [List.length_cons] at hf; omega⟩
    simp only [writeMore, List.cons_append, List.append_assoc, readMore, h.1, ih h.2 (Nat.le_of_succ_le_succ hf),
      Option.bind_eq_bind, Option.bind_some, Option.pure_def]

/-- A list is read back when its elements are and none begins with the closing bracket. -/
theorem readList_write (h : ∀ a ∈ l, ∀ rest, read (write a ++ rest) = some (a, rest))
    (hopen : ∀ a ∈ l, ∀ rest, (write a ++ rest).head? ≠ some ']') (rest : List Char) :
    readList read (writeList write l ++ rest) = some (l, rest) := by
  cases l with
  | nil => rfl
  | cons a l =>
    rw [List.forall_mem_cons] at h hopen
    have hfuel : l.length ≤ (writeMore write l ++ rest).length := by
      have := @length_writeMore _ write l
      rw [List.length_append]
      omega
    simp only [writeList, List.append_assoc, readList, hopen.1, if_false, h.1, readMore_write h.2 rest hfuel,
      Option.bind_eq_bind, Option.bind_some, Option.pure_def]

theorem skip_eq_none {expected input : List Char} (h : expected.isPrefixOf input = false) : skip expected input = none := by
  simp [skip, h]

/-- An optional value is read back when it does not begin as `null`. -/
theorem readOption_write {o : Option α} {rest : List Char} (h : ∀ a, o = some a → read (write a ++ rest) = some (a, rest))
    (hopen : ∀ a, o = some a → (write a ++ rest).head? ≠ some 'n') :
    readOption read (writeOption write o ++ rest) = some (o, rest) := by
  cases o with
  | none => simp [writeOption, readOption]
  | some a =>
    have hskip : skip (text "null") (write a ++ rest) = none := by
      apply skip_eq_none
      unfold text
      cases hw : write a ++ rest with
      | nil => rfl
      | cons c input =>
        have hc := hopen a rfl
        rw [hw, List.head?_cons] at hc
        have hne : 'n' ≠ c := fun heq => hc (heq ▸ rfl)
        simp [List.isPrefixOf, hne]
    simp [writeOption, readOption, hskip, h a rfl]

theorem readBool_write (b : Bool) (rest : List Char) : readBool (writeBool b ++ rest) = some (b, rest) := by
  cases b with
  | true => simp [writeBool, readBool]
  | false =>
    have hne : skip (text "true") (text "false" ++ rest) = none := by
      unfold text
      rfl
    simp [writeBool, readBool, hne]

end

/-! ## One line -/

theorem newline_escapeChar (c : Char) : '\n' ∉ escapeChar c := by
  have hdigit : ∀ n < 16, hexDigit n ≠ '\n' := by decide
  unfold escapeChar
  split
  · decide
  split
  · decide
  split
  · decide
  split
  · decide
  split
  · decide
  split
  · decide
  split
  · decide
  split
  · next h =>
    have hhigh := hdigit (c.toNat / 16) (by omega)
    have hlow := hdigit (c.toNat % 16) (by omega)
    simp [hhigh.symm, hlow.symm]
  · next hc _ _ _ _ _ =>
    rw [List.mem_singleton]
    exact fun h => hc h.symm

@[simp] theorem newline_text {s : String} (h : '\n' ∉ s.toList) : '\n' ∉ text s := by
  unfold text
  exact h

@[simp] theorem newline_quoted (s : String) : '\n' ∉ quoted s := by
  simp [quoted, newline_escapeChar]

@[simp] theorem newline_toDigits (n : Nat) : '\n' ∉ Nat.toDigits 10 n := by
  intro h
  exact absurd (Nat.isDigit_of_mem_toDigits (by decide) (by decide) h) (by decide)

@[simp] theorem newline_writeBool (b : Bool) : '\n' ∉ writeBool b := by
  cases b <;> exact newline_text (by decide)

section

variable {α : Type} {write : α → List Char} {l : List α}

theorem newline_writeOption {o : Option α} (h : ∀ a ∈ o, '\n' ∉ write a) : '\n' ∉ writeOption write o := by
  cases o with
  | none => exact newline_text (by decide)
  | some a => exact h a rfl

theorem newline_writeMore (h : ∀ a ∈ l, '\n' ∉ write a) : '\n' ∉ writeMore write l := by
  induction l with
  | nil => simp [writeMore]
  | cons a l ih =>
    rw [List.forall_mem_cons] at h
    simp [writeMore, h.1, ih h.2]

theorem newline_writeList (h : ∀ a ∈ l, '\n' ∉ write a) : '\n' ∉ writeList write l := by
  cases l with
  | nil => simp [writeList]
  | cons a l =>
    rw [List.forall_mem_cons] at h
    simp [writeList, h.1, newline_writeMore h.2]

end

/-! ## The size of what is written -/

theorem size_text (s : String) : Text.size (text s) = s.utf8ByteSize := by
  unfold text
  exact (Text.utf8ByteSize_eq s).symm

theorem size_escapeChar (c : Char) : Text.size (escapeChar c) ≤ 6 * c.utf8Size := by
  have hshort : ∀ escape : List Char, Text.size escape ≤ 6 → Text.size escape ≤ 6 * c.utf8Size :=
    fun _ h => h.trans (Nat.mul_le_mul_left 6 (Char.utf8Size_pos c))
  have hdigit : ∀ n < 16, (hexDigit n).utf8Size = 1 := by decide
  unfold escapeChar
  split
  · exact hshort _ (by decide)
  split
  · exact hshort _ (by decide)
  split
  · exact hshort _ (by decide)
  split
  · exact hshort _ (by decide)
  split
  · exact hshort _ (by decide)
  split
  · exact hshort _ (by decide)
  split
  · exact hshort _ (by decide)
  split
  · next h =>
    have hhigh := hdigit (c.toNat / 16) (by omega)
    have hlow := hdigit (c.toNat % 16) (by omega)
    refine hshort _ (Nat.le_of_eq ?_)
    simp only [Text.size_cons, Text.size_nil, hhigh, hlow]
    rfl
  · rw [Text.size_cons, Text.size_nil]
    omega

theorem size_quoted (s : String) : Text.size (quoted s) ≤ 6 * s.utf8ByteSize + 1 := by
  have hall : ∀ cs : List Char, Text.size (cs.flatMap escapeChar) ≤ 6 * Text.size cs := by
    intro cs
    induction cs with
    | nil => exact Nat.le_refl _
    | cons c cs ih =>
      have := size_escapeChar c
      rw [List.flatMap_cons, Text.size_append, Text.size_cons]
      omega
  have := hall s.toList
  rw [quoted, Text.size_append, Text.utf8ByteSize_eq]
  exact Nat.add_le_add_right this _

theorem size_toDigits {n limit : Nat} (hlimit : 0 < limit) (h : n < 10 ^ limit) : Text.size (Nat.toDigits 10 n) ≤ limit := by
  have hone : ∀ digits : List Char, (∀ d ∈ digits, d.isDigit = true) → Text.size digits = digits.length := by
    intro digits hdigits
    induction digits with
    | nil => rfl
    | cons d digits ih =>
      rw [List.forall_mem_cons] at hdigits
      have hd : d.utf8Size = 1 := by
        have hlt : d.toNat ≤ 57 := by
          have := hdigits.1
          simp only [Char.isDigit, Bool.and_eq_true, decide_eq_true_eq] at this
          exact this.2
        exact Char.utf8Size_eq_one_iff.2 (UInt32.le_iff_toNat_le.2 (hlt.trans (by decide)))
      rw [Text.size_cons, hd, ih hdigits.2, List.length_cons, Nat.add_comm]
  rw [hone _ fun d hd => Nat.isDigit_of_mem_toDigits (by decide) (by decide) hd]
  exact (Nat.length_toDigits_le_iff (by decide) hlimit).2 h

/-- Each element and the comma or bracket behind it. -/
theorem size_writeList {α : Type} {write : α → List Char} {l : List α} {bound : Nat}
    (h : ∀ a ∈ l, Text.size (write a) ≤ bound) : Text.size (writeList write l) ≤ l.length * (bound + 1) + 1 := by
  have hmore : ∀ l : List α, (∀ a ∈ l, Text.size (write a) ≤ bound) →
      Text.size (writeMore write l) ≤ l.length * (bound + 1) + 1 := by
    intro l h
    induction l with
    | nil =>
      rw [List.length_nil, Nat.zero_mul]
      exact Nat.le_refl 1
    | cons a l ih =>
      rw [List.forall_mem_cons] at h
      have hrest := ih h.2
      rw [writeMore, List.cons_append, Text.size_cons, Text.size_append, List.length_cons, Nat.succ_mul]
      have hcomma : ','.utf8Size = 1 := rfl
      omega
  cases l with
  | nil =>
    rw [List.length_nil, Nat.zero_mul]
    exact Nat.le_refl 1
  | cons a l =>
    rw [List.forall_mem_cons] at h
    have hrest := hmore l h.2
    rw [writeList, Text.size_append, List.length_cons, Nat.succ_mul]
    omega

end AtriumPortal.Lib.JsonText
