import AtriumPortal.Lib.Lines
import AtriumPortal.Lib.Path
import Mathlib.Algebra.GroupWithZero.Nat
import Mathlib.Data.List.DropRight
import Mathlib.Data.List.TakeDrop
/-!
# Text

Decoding bytes that need not be UTF-8, and the text functions that a line-based
file format is read with, over lists of characters.
-/

namespace AtriumPortal.Lib.Text

/-! ## Lossy decoding -/

/-- What the first byte of a sequence asks for: the bytes that follow it, the
range of the next one, and the bits it contributes. -/
def lead (b : UInt8) : Option (Nat × UInt8 × UInt8 × Nat) :=
  if 0xC2 ≤ b ∧ b ≤ 0xDF then some (1, 0x80, 0xBF, b.toNat - 0xC0)
  else if b = 0xE0 then some (2, 0xA0, 0xBF, 0)
  else if b = 0xED then some (2, 0x80, 0x9F, 13)
  else if 0xE1 ≤ b ∧ b ≤ 0xEF then some (2, 0x80, 0xBF, b.toNat - 0xE0)
  else if b = 0xF0 then some (3, 0x90, 0xBF, 0)
  else if 0xF1 ≤ b ∧ b ≤ 0xF3 then some (3, 0x80, 0xBF, b.toNat - 0xF0)
  else if b = 0xF4 then some (3, 0x80, 0x8F, 4)
  else none

def replacement : Char := Char.ofNat 0xFFFD

/-- The rest of a sequence. Where it breaks off, what was read of it is replaced as one. -/
def sequence (lo hi : UInt8) (bits : Nat) : Nat → List UInt8 → Char × List UInt8
  | 0, bytes => (Char.ofNat bits, bytes)
  | _ + 1, [] => (replacement, [])
  | missing + 1, b :: bytes =>
    if lo ≤ b ∧ b ≤ hi then sequence 0x80 0xBF (64 * bits + (b.toNat - 0x80)) missing bytes
    else (replacement, b :: bytes)

def decode : Nat → List UInt8 → List Char
  | 0, _ => []
  | _ + 1, [] => []
  | fuel + 1, b :: bytes =>
    if b < 0x80 then Char.ofNat b.toNat :: decode fuel bytes
    else match lead b with
      | none => replacement :: decode fuel bytes
      | some (missing, lo, hi, bits) =>
        (sequence lo hi bits missing bytes).1 :: decode fuel (sequence lo hi bits missing bytes).2

/-- `String::from_utf8_lossy`. -/
def fromUtf8Lossy (bytes : List UInt8) : List Char := decode bytes.length bytes

theorem sequence_length (lo hi : UInt8) (bits missing : Nat) (bytes : List UInt8) :
    (sequence lo hi bits missing bytes).2.length ≤ bytes.length := by
  fun_induction sequence lo hi bits missing bytes with
  | case1 => exact Nat.le_refl _
  | case2 => exact Nat.le_refl _
  | case3 lo hi bits missing b bytes _ ih => exact Nat.le_succ_of_le ih
  | case4 => exact Nat.le_refl _

/-- Every character takes at least one byte, so the fuel never runs out. -/
theorem decode_fuel {fuel : Nat} {bytes : List UInt8} (h : bytes.length ≤ fuel) :
    decode fuel bytes = fromUtf8Lossy bytes := by
  have hany : ∀ {n m : Nat} {l : List UInt8}, l.length ≤ n → l.length ≤ m → decode n l = decode m l := by
    intro n
    induction n with
    | zero =>
      intro m l hn _
      cases List.length_eq_zero_iff.1 (Nat.le_zero.1 hn)
      cases m <;> rfl
    | succ n ih =>
      intro m l hn hm
      cases l with
      | nil => cases m <;> rfl
      | cons b l =>
        cases m with
        | zero => exact absurd hm (Nat.not_succ_le_zero _)
        | succ m =>
          have hl : l.length ≤ n := Nat.le_of_succ_le_succ hn
          have hl' : l.length ≤ m := Nat.le_of_succ_le_succ hm
          simp only [decode]
          split
          · rw [ih hl hl']
          · split
            · rw [ih hl hl']
            · next lo hi bits missing _ =>
              rw [ih ((sequence_length _ _ _ _ l).trans hl) ((sequence_length _ _ _ _ l).trans hl')]
  exact hany h (Nat.le_refl _)

/-! ## Text that is UTF-8 -/

theorem fromUtf8Lossy_ascii {b : UInt8} (h : b < 0x80) (rest : List UInt8) :
    fromUtf8Lossy (b :: rest) = Char.ofNat b.toNat :: fromUtf8Lossy rest := by
  rw [fromUtf8Lossy, List.length_cons, decode, if_pos h, decode_fuel (Nat.le_refl _)]

theorem fromUtf8Lossy_lead {b lo hi : UInt8} {missing bits : Nat} (h : 0x80 ≤ b)
    (hlead : lead b = some (missing, lo, hi, bits)) (rest : List UInt8) : fromUtf8Lossy (b :: rest) =
      (sequence lo hi bits missing rest).1 :: fromUtf8Lossy (sequence lo hi bits missing rest).2 := by
  rw [fromUtf8Lossy, List.length_cons, decode, if_neg (UInt8.not_lt.2 h), hlead]
  dsimp only
  rw [decode_fuel (sequence_length ..)]

theorem ofNat_le_ofNat {n m : Nat} (hm : m < 256) (h : n ≤ m) : UInt8.ofNat n ≤ UInt8.ofNat m := by
  rw [UInt8.le_iff_toNat_le, UInt8.toNat_ofNat', UInt8.toNat_ofNat', Nat.mod_eq_of_lt hm,
    Nat.mod_eq_of_lt (Nat.lt_of_le_of_lt h hm)]
  exact h

/-- A byte within its bounds continues the sequence. -/
theorem sequence_step {lo hi n : Nat} (hlo : lo ≤ n) (hhi : n ≤ hi) (h : hi < 256) (bits missing : Nat)
    (rest : List UInt8) : sequence (.ofNat lo) (.ofNat hi) bits (missing + 1) (.ofNat n :: rest) =
      sequence (.ofNat 0x80) (.ofNat 0xBF) (64 * bits + (n - 0x80)) missing rest := by
  have hn : (UInt8.ofNat n).toNat = n := by rw [UInt8.toNat_ofNat', Nat.mod_eq_of_lt (by omega)]
  rw [sequence, if_pos ⟨ofNat_le_ofNat (by omega) hlo, ofNat_le_ofNat h hhi⟩, hn]
  rfl

/-- The least and the greatest second byte: a longer sequence than needed, a surrogate and what
is past the last character are left out. -/
def secondMin (n : Nat) : Nat := if n = 0xE0 then 0xA0 else if n = 0xF0 then 0x90 else 0x80
def secondMax (n : Nat) : Nat := if n = 0xED then 0x9F else if n = 0xF4 then 0x8F else 0xBF

theorem secondMax_lt (n : Nat) : secondMax n < 256 := by
  unfold secondMax
  split
  · omega
  · split <;> omega

theorem secondMin_le {n m : Nat} (h : 0x80 ≤ m) (hlong : n = 0xE0 → 0xA0 ≤ m) (hlonger : n = 0xF0 → 0x90 ≤ m) :
    secondMin n ≤ m := by
  unfold secondMin
  split
  · next hn => exact hlong hn
  · split
    · next hn => exact hlonger hn
    · exact h

theorem le_secondMax {n m : Nat} (h : m ≤ 0xBF) (hsurrogate : n = 0xED → m ≤ 0x9F) (hpast : n = 0xF4 → m ≤ 0x8F) :
    m ≤ secondMax n := by
  unfold secondMax
  split
  · next hn => exact hsurrogate hn
  · split
    · next hn => exact hpast hn
    · exact h

theorem lead_two : ∀ n < 0x1E, lead (.ofNat (n + 2 + 0xC0)) =
    some (1, .ofNat (secondMin (n + 2 + 0xC0)), .ofNat (secondMax (n + 2 + 0xC0)), n + 2) := by
  decide +kernel

theorem lead_three : ∀ n < 0x10, lead (.ofNat (n + 0xE0)) =
    some (2, .ofNat (secondMin (n + 0xE0)), .ofNat (secondMax (n + 0xE0)), n) := by
  decide +kernel

theorem lead_four : ∀ n < 5, lead (.ofNat (n + 0xF0)) =
    some (3, .ofNat (secondMin (n + 0xF0)), .ofNat (secondMax (n + 0xF0)), n) := by
  decide +kernel

/-- A character is read back from its encoding. -/
theorem fromUtf8Lossy_encodeChar (c : Char) (rest : List UInt8) :
    fromUtf8Lossy (String.utf8EncodeChar c ++ rest) = c :: fromUtf8Lossy rest := by
  have hvalid : c.val.toNat < 0xD800 ∨ 0xDFFF < c.val.toNat ∧ c.val.toNat < 0x110000 := c.valid
  have hc : Char.ofNat c.val.toNat = c := Char.ofNat_toNat c
  unfold String.utf8EncodeChar
  generalize c.val.toNat = v at hvalid hc ⊢
  dsimp only
  -- one, two, three or four bytes; the bounds of the second byte are what a character leaves of its range
  split
  · next h1 =>
    have hn : (UInt8.ofNat v).toNat = v := by rw [UInt8.toNat_ofNat', Nat.mod_eq_of_lt (by omega)]
    have hlt : UInt8.ofNat v < 0x80 := UInt8.lt_iff_toNat_lt.2 (by rw [hn]; exact Nat.lt_succ_of_le h1)
    rw [List.singleton_append, fromUtf8Lossy_ascii hlt, hn, hc]
  · split
    · next h1 h2 =>
      obtain ⟨n, hn⟩ : ∃ n, v / 64 % 0x20 = n + 2 := ⟨v / 64 % 0x20 - 2, by omega⟩
      have hge := ofNat_le_ofNat (n := 0x80) (m := n + 2 + 0xC0) (by omega) (by omega)
      have hmin : secondMin (n + 2 + 0xC0) ≤ v % 0x40 + 0x80 := secondMin_le (by omega) (by omega) (by omega)
      have hmax : v % 0x40 + 0x80 ≤ secondMax (n + 2 + 0xC0) := le_secondMax (by omega) (by omega) (by omega)
      have hv : 64 * (n + 2) + (v % 0x40 + 0x80 - 0x80) = v := by omega
      simp only [hn, List.cons_append, List.nil_append]
      rw [fromUtf8Lossy_lead hge (lead_two n (by omega)), sequence_step hmin hmax (secondMax_lt _), hv, sequence, hc]
    · split
      · next h1 h2 h3 =>
        obtain ⟨n, hn⟩ : ∃ n, v / 4096 % 0x10 = n := ⟨_, rfl⟩
        have hge := ofNat_le_ofNat (n := 0x80) (m := n + 0xE0) (by omega) (by omega)
        have hmin : secondMin (n + 0xE0) ≤ v / 64 % 0x40 + 0x80 := secondMin_le (by omega) (by omega) (by omega)
        have hmax : v / 64 % 0x40 + 0x80 ≤ secondMax (n + 0xE0) := le_secondMax (by omega) (by omega) (by omega)
        have hv : 64 * (64 * n + (v / 64 % 0x40 + 0x80 - 0x80)) + (v % 0x40 + 0x80 - 0x80) = v := by omega
        simp only [hn, List.cons_append, List.nil_append]
        rw [fromUtf8Lossy_lead hge (lead_three n (by omega)), sequence_step hmin hmax (secondMax_lt _),
          sequence_step (by omega) (by omega) (by omega), hv, sequence, hc]
      · next h1 h2 h3 =>
        obtain ⟨n, hn⟩ : ∃ n, v / 262144 % 0x08 = n := ⟨_, rfl⟩
        have hge := ofNat_le_ofNat (n := 0x80) (m := n + 0xF0) (by omega) (by omega)
        have hmin : secondMin (n + 0xF0) ≤ v / 4096 % 0x40 + 0x80 := secondMin_le (by omega) (by omega) (by omega)
        have hmax : v / 4096 % 0x40 + 0x80 ≤ secondMax (n + 0xF0) := le_secondMax (by omega) (by omega) (by omega)
        have hv : 64 * (64 * (64 * n + (v / 4096 % 0x40 + 0x80 - 0x80)) + (v / 64 % 0x40 + 0x80 - 0x80)) +
            (v % 0x40 + 0x80 - 0x80) = v := by
          omega
        simp only [hn, List.cons_append, List.nil_append]
        rw [fromUtf8Lossy_lead hge (lead_four n (by omega)), sequence_step hmin hmax (secondMax_lt _),
          sequence_step (by omega) (by omega) (by omega), sequence_step (by omega) (by omega) (by omega), hv, sequence, hc]

/-- Text is read back from its encoding. -/
theorem fromUtf8Lossy_encode (text : List Char) : fromUtf8Lossy (text.flatMap String.utf8EncodeChar) = text := by
  induction text with
  | nil => rfl
  | cons c text ih => rw [List.flatMap_cons, fromUtf8Lossy_encodeChar, ih]

theorem fromUtf8Lossy_bytes (text : String) : fromUtf8Lossy (Path.bytes text) = text.toList := by
  rw [Path.bytes_eq, fromUtf8Lossy_encode]

/-- A byte below 128 stands for its own character. -/
theorem ascii_mem_encodeChar {b : UInt8} (hb : b < 0x80) {c : Char} (h : b ∈ String.utf8EncodeChar c) :
    c.toNat = b.toNat := by
  have hvalid : c.val.toNat < 0xD800 ∨ 0xDFFF < c.val.toNat ∧ c.val.toNat < 0x110000 := c.valid
  have hhigh : ∀ n, n < 256 → 0x80 ≤ n → b ≠ UInt8.ofNat n := by
    rintro n hn hle rfl
    exact absurd (ofNat_le_ofNat (n := 0x80) hn hle) (UInt8.not_le.2 hb)
  unfold String.utf8EncodeChar at h
  show c.val.toNat = b.toNat
  generalize c.val.toNat = v at hvalid h ⊢
  dsimp only at h
  split at h
  · next h1 =>
    rw [List.mem_singleton.1 h, UInt8.toNat_ofNat', Nat.mod_eq_of_lt (by omega)]
  · exfalso
    split at h
    · simp only [List.mem_cons, List.not_mem_nil, or_false] at h
      rcases h with h | h <;> exact hhigh _ (by omega) (by omega) h
    · split at h
      · simp only [List.mem_cons, List.not_mem_nil, or_false] at h
        rcases h with h | h | h <;> exact hhigh _ (by omega) (by omega) h
      · simp only [List.mem_cons, List.not_mem_nil, or_false] at h
        rcases h with h | h | h | h <;> exact hhigh _ (by omega) (by omega) h

theorem ascii_mem_bytes {b : UInt8} (hb : b < 0x80) {text : List Char} (h : b ∈ Path.bytes (String.ofList text)) :
    Char.ofNat b.toNat ∈ text := by
  rw [Path.bytes_eq, String.toList_ofList, List.mem_flatMap] at h
  obtain ⟨c, hc, hin⟩ := h
  rwa [← ascii_mem_encodeChar hb hin, Char.ofNat_toNat]

theorem encodeChar_ascii {c : Char} (h : c.toNat < 0x80) : String.utf8EncodeChar c = [c.toNat.toUInt8] := by
  have hval : c.val.toNat ≤ 0x7F := Nat.le_of_lt_succ h
  simp only [String.utf8EncodeChar, hval, if_true]
  rfl

/-- A byte below 128 that the bytes of a text start with is its first character. -/
theorem ascii_head {b : UInt8} (hb : b < 0x80) {text : List Char} {tail : List UInt8}
    (h : text.flatMap String.utf8EncodeChar = b :: tail) :
    ∃ rest, text = Char.ofNat b.toNat :: rest ∧ tail = rest.flatMap String.utf8EncodeChar := by
  cases text with
  | nil => cases h
  | cons c text =>
    obtain ⟨first, more, hc⟩ := List.exists_cons_of_ne_nil (show String.utf8EncodeChar c ≠ [] by simp)
    rw [List.flatMap_cons, hc, List.cons_append, List.cons.injEq] at h
    have hnat : c.toNat = b.toNat := ascii_mem_encodeChar hb (by rw [hc, h.1]; exact List.mem_cons_self ..)
    have hlow : c.toNat < 0x80 := hnat ▸ UInt8.lt_iff_toNat_lt.1 hb
    rw [encodeChar_ascii hlow] at hc
    refine ⟨text, by rw [← hnat, Char.ofNat_toNat], ?_⟩
    rw [← h.2, (List.cons.inj hc).2.symm, List.nil_append]

/-- ASCII text that the bytes of a text start with is what the text starts with. -/
theorem ascii_prefix {head text : List Char} {tail : List UInt8} (hascii : ∀ c ∈ head, c.toNat < 0x80)
    (h : head.flatMap String.utf8EncodeChar ++ tail = text.flatMap String.utf8EncodeChar) :
    ∃ rest, text = head ++ rest ∧ tail = rest.flatMap String.utf8EncodeChar := by
  induction head generalizing text with
  | nil => exact ⟨text, rfl, h⟩
  | cons c head ih =>
    have hc : c.toNat < 0x80 := hascii c (List.mem_cons_self ..)
    have hbyte : c.toNat.toUInt8.toNat = c.toNat := by
      rw [Nat.toUInt8, UInt8.toNat_ofNat']
      omega
    have hlow : c.toNat.toUInt8 < 0x80 := by
      rw [UInt8.lt_iff_toNat_lt, hbyte]
      exact hc
    rw [List.flatMap_cons, encodeChar_ascii hc, List.append_assoc, List.singleton_append] at h
    obtain ⟨more, rfl, hmore⟩ := ascii_head hlow h.symm
    obtain ⟨rest, rfl, htail⟩ := ih (fun c hin => hascii c (List.mem_cons_of_mem _ hin)) hmore
    exact ⟨rest, by rw [hbyte, Char.ofNat_toNat, List.cons_append], htail⟩

/-- The bytes of a text, where they are those of one. -/
theorem fromUTF8?_eq_some {decoded : List UInt8} {text : String} :
    String.fromUTF8? ⟨decoded.toArray⟩ = some text ↔ Path.bytes text = decoded := by
  constructor
  · intro h
    unfold String.fromUTF8? at h
    split at h
    · cases h
      rfl
    · cases h
  · rintro rfl
    have hback : (⟨(Path.bytes text).toArray⟩ : ByteArray) = text.toByteArray := rfl
    rw [hback]
    simp [String.fromUTF8?, String.isValidUTF8, String.fromUTF8]

/-! ## Lines and fields -/

/-- A line without its line feed. -/
def stripNewline (line : List Char) : List Char := if line.getLast? = some '\n' then line.dropLast else line

/-- The lines of a text, without their line feeds. -/
def rows (text : List Char) : List (List Char) := (Lines.splitAfter '\n' text).map stripNewline

/-- A line without the carriage return before its line feed. -/
def chomp (line : List Char) : List Char :=
  if line.getLast? = some '\r' then line.dropLast else line

/-- `str::lines`, `line` being what was read of the current one. -/
def linesFrom (line : List Char) : List Char → List (List Char)
  | [] => if line = [] then [] else [line]
  | c :: text => if c = '\n' then chomp line :: linesFrom [] text else linesFrom (line ++ [c]) text

def lines (text : List Char) : List (List Char) := linesFrom [] text

/-- `str::split_once`. -/
def splitOnce (sep : Char) (text : List Char) : Option (List Char × List Char) :=
  match text.span (· ≠ sep) with
  | (_, []) => none
  | (before, _ :: after) => some (before, after)

def trimEnd (space : Char → Bool) (text : List Char) : List Char := text.rdropWhile space

def trim (space : Char → Bool) (text : List Char) : List Char := trimEnd space (text.dropWhile space)

/-- The text between a leading and a closing bracket. -/
def bracketed : List Char → Option (List Char)
  | '[' :: text => if text.getLast? = some ']' then some text.dropLast else none
  | _ => none

/-- The non-empty items of a separated list. -/
def items (space : Char → Bool) (sep : Char) (text : List Char) : List (List Char) :=
  ((text.splitOn sep).map (trim space)).filter (· ≠ [])

example : fromUtf8Lossy [0x4E, 0xC3, 0xA9, 0xE2, 0x82, 0x41, 0xFF] = ['N', 'é', replacement, 'A', replacement] := by decide

/-! ## The size of a text -/

/-- The bytes that a text takes. -/
def size (text : List Char) : Nat := (text.map Char.utf8Size).sum

@[simp] theorem size_nil : size [] = 0 := rfl

@[simp] theorem size_cons (c : Char) (text : List Char) : size (c :: text) = c.utf8Size + size text := rfl

@[simp] theorem size_append (a b : List Char) : size (a ++ b) = size a + size b := by
  rw [size, List.map_append, List.sum_append, size, size]

theorem utf8ByteSize_ofList (text : List Char) : (String.ofList text).utf8ByteSize = size text := by
  induction text with
  | nil => rfl
  | cons c text ih =>
    have hcons : String.ofList (c :: text) = String.singleton c ++ String.ofList text := by
      rw [← String.toList_inj]
      simp
    rw [hcons, String.utf8ByteSize_append, String.utf8ByteSize_singleton, ih, size_cons]

theorem utf8ByteSize_eq (text : String) : text.utf8ByteSize = size text.toList := by
  rw [← utf8ByteSize_ofList, String.ofList_toList]

theorem length_bytes (text : String) : (Path.bytes text).length = text.utf8ByteSize := rfl

/-- A character is at most four bytes. -/
theorem utf8ByteSize_ofList_le (l : List Char) : (String.ofList l).utf8ByteSize ≤ 4 * l.length := by
  rw [utf8ByteSize_ofList]
  induction l with
  | nil => exact Nat.le_refl _
  | cons c l ih =>
    have := Char.utf8Size_le_four c
    rw [size_cons, List.length_cons]
    omega

/-- The start of a text that fits a number of bytes, up to the last character boundary. -/
def takeBytes : Nat → List Char → List Char
  | _, [] => []
  | limit, c :: text => if c.utf8Size ≤ limit then c :: takeBytes (limit - c.utf8Size) text else []

theorem takeBytes_start (limit : Nat) (text : List Char) : takeBytes limit text <+: text := by
  fun_induction takeBytes limit text with
  | case1 => exact List.nil_prefix
  | case2 limit c text h ih => exact List.cons_prefix_cons.2 ⟨rfl, ih⟩
  | case3 => exact List.nil_prefix

theorem size_takeBytes_le (limit : Nat) (text : List Char) : size (takeBytes limit text) ≤ limit := by
  fun_induction takeBytes limit text with
  | case1 => exact Nat.zero_le _
  | case2 limit c text h ih =>
    rw [size_cons]
    omega
  | case3 => exact Nat.zero_le _

/-- What fits is kept. -/
theorem prefix_takeBytes {limit : Nat} {a b : List Char} (h : size a ≤ limit) : a <+: takeBytes limit (a ++ b) := by
  induction a generalizing limit with
  | nil => exact List.nil_prefix
  | cons c a ih =>
    rw [size_cons] at h
    rw [List.cons_append, takeBytes, if_pos (by omega)]
    exact List.cons_prefix_cons.2 ⟨rfl, ih (by omega)⟩

/-- The start ends with the text, or before a character that does not fit. -/
theorem takeBytes_split (limit : Nat) (text : List Char) : takeBytes limit text = text ∨
    ∃ c rest, text = takeBytes limit text ++ c :: rest ∧ limit < size (takeBytes limit text) + c.utf8Size := by
  fun_induction takeBytes limit text with
  | case1 => exact .inl rfl
  | case2 limit c text h ih =>
    rcases ih with heq | ⟨d, rest, heq, hlong⟩
    · exact .inl (by rw [heq])
    · refine .inr ⟨d, rest, congrArg (c :: ·) heq, ?_⟩
      rw [size_cons]
      omega
  | case3 limit c text h => exact .inr ⟨c, text, rfl, by rw [size_nil]; omega⟩

/-- `&text[..n]`, which panics within a character and past the end. -/
def sliceTo (n : Nat) (text : List Char) : Option (List Char) :=
  if size (takeBytes n text) = n then some (takeBytes n text) else none

/-- A slice of a text that is long enough panics where a character lies across its end. -/
theorem sliceTo_eq_none {n : Nat} {text : List Char} (h : n ≤ size text) :
    sliceTo n text = none ↔ ∃ a c b, text = a ++ c :: b ∧ size a < n ∧ n < size a + c.utf8Size := by
  constructor
  · intro hnone
    unfold sliceTo at hnone
    split at hnone
    · cases hnone
    · next hne =>
      have hlt : size (takeBytes n text) < n := Nat.lt_of_le_of_ne (size_takeBytes_le n text) hne
      rcases takeBytes_split n text with heq | ⟨c, rest, heq, hlong⟩
      · rw [heq] at hlt
        omega
      · exact ⟨takeBytes n text, c, rest, heq, hlt, hlong⟩
  · rintro ⟨a, c, b, rfl, hlt, hlong⟩
    obtain ⟨more, hmore⟩ := prefix_takeBytes (b := c :: b) (Nat.le_of_lt hlt)
    -- a character more than `a` would be too much
    have hcut : takeBytes n (a ++ c :: b) = a := by
      cases more with
      | nil => rw [← hmore, List.append_nil]
      | cons d more =>
        obtain ⟨rest, hrest⟩ := takeBytes_start n (a ++ c :: b)
        have hle := size_takeBytes_le n (a ++ c :: b)
        rw [← hmore] at hrest hle
        rw [List.append_assoc, List.append_cancel_left_eq, List.cons_append, List.cons.injEq] at hrest
        rw [size_append, size_cons, hrest.1] at hle
        omega
    rw [sliceTo, hcut, if_neg (Nat.ne_of_lt hlt)]

/-- A text is found in the kept start iff it ends early enough somewhere. -/
theorem infix_takeBytes_iff {limit : Nat} {text part : List Char} :
    part <:+: takeBytes limit text ↔ ∃ a b, text = a ++ part ++ b ∧ size a + size part ≤ limit := by
  constructor
  · rintro ⟨a, b, h⟩
    obtain ⟨rest, hrest⟩ := takeBytes_start limit text
    refine ⟨a, b ++ rest, by rw [← List.append_assoc, h, hrest], ?_⟩
    have hle := size_takeBytes_le limit text
    rw [← h, size_append, size_append] at hle
    omega
  · rintro ⟨a, b, rfl, hle⟩
    have hpre : a ++ part <+: takeBytes limit (a ++ part ++ b) := prefix_takeBytes (by rwa [size_append])
    exact (List.suffix_append a part).isInfix.trans hpre.isInfix

/-! ## Finding a text -/

/-- A text without `c` lies on one side of it. -/
theorem split_around {α : Type} {c : α} {part x y a b : List α} (hc : c ∉ part) (h : x ++ c :: y = a ++ part ++ b) :
    (∃ b', x = a ++ part ++ b') ∨ ∃ a', a = x ++ c :: a' ∧ y = a' ++ part ++ b := by
  rw [List.append_assoc] at h
  rcases List.append_eq_append_iff.1 h with ⟨m, rfl, hm⟩ | ⟨m, rfl, hm⟩
  · cases m with
    | nil =>
      cases part with
      | nil => exact .inl ⟨[], by simp⟩
      | cons d part =>
        obtain ⟨rfl, -⟩ := List.cons.inj hm
        exact absurd List.mem_cons_self hc
    | cons d m =>
      obtain ⟨rfl, rfl⟩ := List.cons.inj hm
      exact .inr ⟨m, rfl, (List.append_assoc ..).symm⟩
  · rcases List.append_eq_append_iff.1 hm with ⟨k, rfl, -⟩ | ⟨k, rfl, hk⟩
    · exact .inl ⟨k, (List.append_assoc ..).symm⟩
    · cases k with
      | nil => exact .inl ⟨[], by simp⟩
      | cons d k =>
        obtain ⟨rfl, -⟩ := List.cons.inj hk
        exact absurd (List.mem_append_right m List.mem_cons_self) hc

/-! ## The lines of a text -/

theorem chomp_eq_self {line : List Char} (h : line.getLast? ≠ some '\r') : chomp line = line := if_neg h

theorem linesFrom_break {line a : List Char} (h : '\n' ∉ a) (rest : List Char) :
    linesFrom line (a ++ '\n' :: rest) = chomp (line ++ a) :: lines rest := by
  induction a generalizing line with
  | nil => simp [linesFrom, lines]
  | cons c a ih =>
    have hc : c ≠ '\n' := fun hc => h (hc ▸ List.mem_cons_self)
    rw [List.cons_append, linesFrom, if_neg hc, ih fun hin => h (List.mem_cons_of_mem _ hin), List.append_assoc,
      List.singleton_append]

theorem linesFrom_length (line text : List Char) : (linesFrom line (text ++ ['\n'])).length = text.count '\n' + 1 := by
  induction text generalizing line with
  | nil => rfl
  | cons c text ih =>
    by_cases hc : c = '\n'
    · simp [linesFrom, hc, ih]
    · rw [List.cons_append, linesFrom, if_neg hc, ih, List.count_cons_of_ne hc]

/-- Texts, each closed by a line feed. -/
def unlines (texts : List (List Char)) : List Char := texts.flatMap (· ++ ['\n'])

theorem unlines_cons (text : List Char) (texts : List (List Char)) :
    unlines (text :: texts) = text ++ '\n' :: unlines texts := by
  simp [unlines]

/-- Texts without line feeds are read back as lines. -/
theorem lines_unlines {texts : List (List Char)} (h : ∀ text ∈ texts, '\n' ∉ text) :
    lines (unlines texts) = texts.map chomp := by
  induction texts with
  | nil => rfl
  | cons text texts ih =>
    rw [unlines_cons, lines, linesFrom_break (h text List.mem_cons_self), List.nil_append,
      ih fun t ht => h t (List.mem_cons_of_mem _ ht), List.map_cons]

/-- A text is closed lines and what is left behind them. -/
theorem unlines_rest (text : List Char) :
    ∃ rows last, text = unlines rows ++ last ∧ (∀ row ∈ rows, '\n' ∉ row) ∧ '\n' ∉ last := by
  induction text using @Lines.pieces_induction _ _ '\n' with
  | nil => exact ⟨[], [], rfl, nofun, List.not_mem_nil⟩
  | last a ha _ => exact ⟨[], a, rfl, nofun, ha⟩
  | piece a rest ha ih =>
    obtain ⟨rows, last, rfl, hrows, hlast⟩ := ih
    exact ⟨a :: rows, last, by rw [unlines_cons]; simp, List.forall_mem_cons.2 ⟨ha, hrows⟩, hlast⟩

section

variable {rows : List (List Char)} {last : List Char} (hrows : ∀ row ∈ rows, '\n' ∉ row) (hlast : '\n' ∉ last)

include hrows hlast

theorem splitAfter_unlines : Lines.splitAfter '\n' (unlines rows ++ last) =
    rows.map (· ++ ['\n']) ++ (if last = [] then [] else [last]) := by
  induction rows with
  | nil =>
    show Lines.splitAfter '\n' last = _
    split
    · next hnil =>
      rw [hnil]
      rfl
    · next hne => exact Lines.splitAfter_last hlast hne
  | cons row rows ih =>
    rw [List.forall_mem_cons] at hrows
    rw [unlines_cons, List.append_assoc, List.cons_append, Lines.splitAfter_break hrows.1, ih hrows.2]
    rfl

theorem rows_unlines : Text.rows (unlines rows ++ last) = rows ++ (if last = [] then [] else [last]) := by
  have hstrip : stripNewline ∘ (· ++ ['\n']) = id := funext fun row => by simp [stripNewline]
  have hself : stripNewline last = last := if_neg fun h => hlast (List.mem_of_mem_getLast? (Option.mem_def.2 h))
  rw [Text.rows, splitAfter_unlines hrows hlast, List.map_append, List.map_map, hstrip, List.map_id]
  split
  · rfl
  · rw [List.map_singleton, hself]

theorem lines_unlines_rest : lines (unlines rows ++ last) = rows.map chomp ++ (if last = [] then [] else [last]) := by
  induction rows with
  | nil =>
    have hopen : ∀ (line text : List Char), '\n' ∉ text → linesFrom line text = if line ++ text = [] then [] else [line ++ text] := by
      intro line text htext
      induction text generalizing line with
      | nil => rw [linesFrom, List.append_nil]
      | cons c text ih =>
        have hc : c ≠ '\n' := fun hc => htext (hc ▸ List.mem_cons_self)
        rw [linesFrom, if_neg hc, ih _ fun hin => htext (List.mem_cons_of_mem _ hin), List.append_assoc,
          List.singleton_append]
    exact hopen [] last hlast
  | cons row rows ih =>
    rw [List.forall_mem_cons] at hrows
    rw [unlines_cons, List.append_assoc, List.cons_append, lines, linesFrom_break hrows.1, List.nil_append, ih hrows.2]
    rfl

end

/-- Every line feed closes a line. -/
theorem lines_unlines_length {texts : List (List Char)} (h : texts ≠ []) :
    (lines (unlines texts)).length = texts.length + (texts.map (List.count '\n')).sum := by
  have hlast : ∃ text, unlines texts = text ++ ['\n'] ∧ text.count '\n' + 1 = texts.length + (texts.map (List.count '\n')).sum := by
    induction texts with
    | nil => exact absurd rfl h
    | cons text texts ih =>
      by_cases hnil : texts = []
      · subst hnil
        exact ⟨text, by simp [unlines], by simp [Nat.add_comm]⟩
      · obtain ⟨rest, hrest, hcount⟩ := ih hnil
        refine ⟨text ++ '\n' :: rest, by rw [unlines_cons, hrest]; simp, ?_⟩
        simp only [List.count_append, List.count_cons_self, List.length_cons, List.map_cons, List.sum_cons]
        omega
  obtain ⟨text, htext, hcount⟩ := hlast
  rw [htext, lines, linesFrom_length, hcount]

theorem splitOnce_append {sep : Char} {a : List Char} (h : sep ∉ a) (b : List Char) :
    splitOnce sep (a ++ sep :: b) = some (a, b) := by
  have htake : (a ++ sep :: b).span (· ≠ sep) = (a, sep :: b) := by
    have hall : ∀ c ∈ a, (decide (c ≠ sep)) = true := fun c hc => decide_eq_true fun heq => h (heq ▸ hc)
    rw [List.span_eq_takeWhile_dropWhile, List.takeWhile_append_of_pos hall, List.dropWhile_append_of_pos hall]
    simp
  rw [splitOnce, htake]

theorem splitOnce_none {sep : Char} {text : List Char} (h : sep ∉ text) : splitOnce sep text = none := by
  have hspan : text.span (· ≠ sep) = (text, []) := by
    have hall : ∀ c ∈ text, (decide (c ≠ sep)) = true := fun c hc => decide_eq_true fun heq => h (heq ▸ hc)
    rw [List.span_eq_takeWhile_dropWhile, List.takeWhile_eq_self_iff.2 hall, List.dropWhile_eq_nil_iff.2 hall]
  rw [splitOnce, hspan]

theorem splitOnce_eq_some {sep : Char} {text a b : List Char} (h : splitOnce sep text = some (a, b)) :
    text = a ++ sep :: b ∧ sep ∉ a := by
  by_cases hin : sep ∈ text
  · obtain ⟨a', b', rfl, ha'⟩ := List.eq_append_cons_of_mem hin
    rw [splitOnce_append ha'] at h
    cases h
    exact ⟨rfl, ha'⟩
  · rw [splitOnce_none hin] at h
    cases h

/-! ## What trimming leaves -/

variable {space : Char → Bool} {text : List Char}

/-- Trimmed text that is not empty starts with something to show. -/
theorem trim_head (h : trim space text ≠ []) : ∃ c rest, trim space text = c :: rest ∧ space c = false := by
  cases hd : text.dropWhile space with
  | nil => simp [trim, trimEnd, hd] at h
  | cons c rest =>
    have hc : space c = false := by
      have := List.head?_dropWhile_not space text
      simpa [hd] using this
    obtain ⟨suffix, hs⟩ := List.rdropWhile_prefix space (text.dropWhile space)
    rw [hd] at hs
    rw [trim, trimEnd, hd] at h ⊢
    cases ht : (c :: rest).rdropWhile space with
    | nil => exact absurd ht h
    | cons c' rest' =>
      rw [ht] at hs
      cases hs
      exact ⟨c, rest', rfl, hc⟩

theorem trimEnd_eq_self (h : ∀ c, text.getLast? = some c → space c = false) : trimEnd space text = text := by
  refine List.rdropWhile_eq_self_iff.2 fun hne => ?_
  rw [h _ (List.getLast?_eq_some_getLast hne)]
  exact Bool.false_ne_true

theorem trim_eq_self (hfirst : ∀ c, text.head? = some c → space c = false)
    (hlast : ∀ c, text.getLast? = some c → space c = false) : trim space text = text := by
  cases text with
  | nil => rfl
  | cons c rest => rw [trim, List.dropWhile_cons_of_neg (by rw [hfirst c rfl]; exact Bool.false_ne_true), trimEnd_eq_self hlast]

/-- Trimming stops at what is to be shown. -/
theorem trimEnd_append {c : Char} (h : space c = false) (a b : List Char) :
    trimEnd space (a ++ c :: b) = a ++ c :: trimEnd space b := by
  induction b using List.reverseRecOn with
  | nil => exact trimEnd_eq_self (by simp [h])
  | append_singleton b d ih =>
    rw [← List.cons_append, ← List.append_assoc, trimEnd, trimEnd, List.rdropWhile_concat, List.rdropWhile_concat]
    split
    · exact ih
    · simp

theorem splitOnce_trimEnd {sep : Char} (h : space sep = false) (text : List Char) :
    splitOnce sep (trimEnd space text) = (splitOnce sep text).map fun (a, b) => (a, trimEnd space b) := by
  by_cases hin : sep ∈ text
  · obtain ⟨a, b, rfl, ha⟩ := List.eq_append_cons_of_mem hin
    rw [trimEnd_append h, splitOnce_append ha, splitOnce_append ha]
    rfl
  · have hend : sep ∉ trimEnd space text := fun hend => hin ((List.rdropWhile_prefix space text).subset hend)
    rw [splitOnce_none hin, splitOnce_none hend]
    rfl

theorem trim_spaces {a spaces : List Char} (h : ∀ c ∈ spaces, space c = true) :
    trim space (a ++ spaces) = trim space a := by
  have hend : ∀ b : List Char, trimEnd space (b ++ spaces) = trimEnd space b := by
    intro b
    induction spaces using List.reverseRecOn with
    | nil => rw [List.append_nil]
    | append_singleton spaces c ih =>
      rw [← List.append_assoc, trimEnd, List.rdropWhile_concat_pos _ _ _ (h c (by simp))]
      exact ih fun d hd => h d (List.mem_append_left _ hd)
  rw [trim, trim, List.dropWhile_append]
  split
  · next hall =>
    rw [List.isEmpty_iff] at hall
    rw [hall, List.dropWhile_eq_nil_iff.2 h]
  · exact hend _

theorem trimEnd_last {c : Char} (h : (trimEnd space text).getLast? = some c) : space c = false := by
  induction text using List.reverseRecOn with
  | nil => cases h
  | append_singleton text d ih =>
    by_cases hd : space d = true
    · rw [trimEnd, List.rdropWhile_concat_pos _ _ _ hd] at h
      exact ih h
    · rw [trimEnd, List.rdropWhile_concat_neg _ _ _ hd, List.getLast?_concat] at h
      cases h
      exact Bool.eq_false_iff.2 hd

theorem trim_leading {spaces : List Char} (h : ∀ c ∈ spaces, space c = true) (a : List Char) :
    trim space (spaces ++ a) = trim space a := by
  rw [trim, trim, List.dropWhile_append_of_pos h]

/-- When trimming only leaves the end, the front is blank. -/
theorem blank_front {a b : List Char} (h : trim space (a ++ b) = b) (hne : b ≠ []) : ∀ c ∈ a, space c = true := by
  rw [← List.dropWhile_eq_nil_iff]
  by_contra hfront
  have hlast : ∀ c, b.getLast? = some c → space c = false := by
    intro c hc
    rw [← h] at hc
    exact trimEnd_last hc
  have hend : trimEnd space (a.dropWhile space ++ b) = a.dropWhile space ++ b :=
    trimEnd_eq_self fun c hc => hlast c (by rwa [List.getLast?_append_of_ne_nil _ hne] at hc)
  rw [trim, List.dropWhile_append, if_neg (by simpa [List.isEmpty_iff] using hfront), hend] at h
  exact hfront (List.append_left_eq_self.1 h)

theorem trimEnd_split (text : List Char) : ∃ spaces, text = trimEnd space text ++ spaces ∧ ∀ c ∈ spaces, space c = true := by
  induction text using List.reverseRecOn with
  | nil => exact ⟨[], rfl, nofun⟩
  | append_singleton text c ih =>
    by_cases hc : space c = true
    · obtain ⟨spaces, heq, hall⟩ := ih
      refine ⟨spaces ++ [c], ?_, fun d hd => ?_⟩
      · rw [trimEnd, List.rdropWhile_concat_pos _ _ _ hc, ← List.append_assoc]
        exact congrArg (· ++ [c]) heq
      · exact (List.mem_append.1 hd).elim (hall d) fun hd => List.mem_singleton.1 hd ▸ hc
    · exact ⟨[], by rw [trimEnd, List.rdropWhile_concat_neg _ _ _ hc, List.append_nil], nofun⟩

theorem trim_trim (text : List Char) : trim space (trim space text) = trim space text := by
  refine trim_eq_self (fun c hc => ?_) fun c hc => trimEnd_last hc
  have hne : trim space text ≠ [] := fun h => by simp [h] at hc
  obtain ⟨d, rest, heq, hd⟩ := trim_head hne
  rw [heq, List.head?_cons] at hc
  cases hc
  exact hd

/-! ## Items -/

variable {sep : Char}

theorem items_append_sep (a b : List Char) : items space sep (a ++ sep :: b) = items space sep a ++ items space sep b := by
  rw [items, List.splitOn_append_cons_self, List.map_append, List.filter_append, items, items]

/-- A trimmed text without the separator is an item. -/
theorem items_single {a : List Char} (h : sep ∉ a) (htrim : trim space a = a) (hne : a ≠ []) : items space sep a = [a] := by
  rw [items, List.splitOn_eq_singleton h, List.map_singleton, htrim]
  simp [hne]

theorem intercalate_concat {α : Type} (sep : α) (a : List α) (l : List (List α)) :
    [sep].intercalate (a :: l) ++ [sep] = (a :: l).flatMap (· ++ [sep]) := by
  induction l generalizing a with
  | nil => simp
  | cons b l ih =>
    rw [List.flatMap_cons, ← ih b]
    simp [List.intercalate]

theorem items_nil : items space sep [] = [] := rfl

theorem items_flatMap (l : List (List Char)) : items space sep (l.flatMap (· ++ [sep])) = l.flatMap (items space sep) := by
  induction l with
  | nil => exact items_nil
  | cons a l ih => rw [List.flatMap_cons, List.flatMap_cons, List.append_assoc, List.singleton_append, items_append_sep, ih]

/-- Blanks behind the last item do not count. -/
theorem items_spaces {a spaces : List Char} (hsep : space sep = false) (h : ∀ c ∈ spaces, space c = true) :
    items space sep (a ++ spaces) = items space sep a := by
  have hnotin : ∀ c ∈ spaces, c ≠ sep := by
    rintro c hc rfl
    rw [h c hc] at hsep
    cases hsep
  have hlast : ∀ b : List Char, sep ∉ b → items space sep (b ++ spaces) = items space sep b := by
    intro b hb
    have hb' : sep ∉ b ++ spaces := fun hin => (List.mem_append.1 hin).elim hb fun hin => hnotin sep hin rfl
    rw [items, List.splitOn_eq_singleton hb', items, List.splitOn_eq_singleton hb, List.map_singleton, List.map_singleton,
      trim_spaces h]
  induction a using @Lines.pieces_induction _ _ sep with
  | nil => exact hlast [] List.not_mem_nil
  | last a ha _ => exact hlast a ha
  | piece a rest _ ih => rw [List.append_assoc, List.cons_append, items_append_sep, ih, items_append_sep]

theorem items_trimEnd (hsep : space sep = false) (text : List Char) :
    items space sep (trimEnd space text) = items space sep text := by
  obtain ⟨spaces, heq, hall⟩ := @trimEnd_split space text
  conv_rhs => rw [heq]
  exact (items_spaces hsep hall).symm

theorem mem_splitOn {a part : List Char} (h : part ∈ a.splitOn sep) : sep ∉ part ∧ part ⊆ a := by
  induction a using @Lines.pieces_induction _ _ sep with
  | nil =>
    rw [List.splitOn_eq_singleton List.not_mem_nil, List.mem_singleton] at h
    rw [h]
    exact ⟨List.not_mem_nil, List.Subset.refl _⟩
  | last a ha _ =>
    rw [List.splitOn_eq_singleton ha, List.mem_singleton] at h
    rw [h]
    exact ⟨ha, List.Subset.refl _⟩
  | piece a rest ha ih =>
    rw [List.splitOn_append_cons_self_of_not_mem ha, List.mem_cons] at h
    rcases h with rfl | h
    · exact ⟨ha, List.subset_append_left _ _⟩
    · exact ⟨(ih h).1, fun c hc => List.mem_append_right _ (List.mem_cons_of_mem _ ((ih h).2 hc))⟩

theorem trim_subset (text : List Char) : trim space text ⊆ text :=
  fun _ hc => (List.dropWhile_suffix _).subset ((List.rdropWhile_prefix ..).subset hc)

/-- Each item is trimmed and without the separator. -/
theorem mem_items {a item : List Char} (h : item ∈ items space sep a) :
    item ≠ [] ∧ sep ∉ item ∧ trim space item = item ∧ item ⊆ a := by
  rw [items, List.mem_filter, List.mem_map] at h
  obtain ⟨⟨b, hb, rfl⟩, hne⟩ := h
  obtain ⟨hsep, hsub⟩ := mem_splitOn hb
  exact ⟨by simpa using hne, fun hin => hsep (trim_subset b hin), trim_trim b, fun _ hc => hsub (trim_subset b hc)⟩

end AtriumPortal.Lib.Text
