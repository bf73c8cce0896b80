import AtriumPortal.Lib.Path
/-!
# Percent-encoding

A byte written as `%` and two hexadecimal digits. Decoding is strict: a `%` without
two digits behind it is an error.
-/

namespace AtriumPortal.Lib.Percent

open AtriumPortal.Lib.Path (Bytes bytes)

/-- The byte of `%`. -/
abbrev percent : UInt8 := 37

def hexValue (b : UInt8) : Option UInt8 :=
  if 48 ≤ b ∧ b ≤ 57 then some (b - 48)
  else if 97 ≤ b ∧ b ≤ 102 then some (b - 97 + 10)
  else if 65 ≤ b ∧ b ≤ 70 then some (b - 65 + 10)
  else none

def decode : Bytes → Option Bytes
  | [] => some []
  | b :: rest =>
    if b = percent then
      match rest with
      | hi :: lo :: rest => do
        let h ← hexValue hi
        let l ← hexValue lo
        let decoded ← decode rest
        return (h * 16 + l) :: decoded
      | _ => none
    else (decode rest).map (b :: ·)

@[simp] theorem decode_nil : decode [] = some [] := rfl

theorem decode_cons {b : UInt8} (h : b ≠ percent) (rest : Bytes) : decode (b :: rest) = (decode rest).map (b :: ·) := by
  rw [decode.eq_def]
  exact if_neg h

theorem decode_escape {hi lo h l : UInt8} (hhi : hexValue hi = some h) (hlo : hexValue lo = some l) (rest : Bytes) :
    decode (percent :: hi :: lo :: rest) = (decode rest).map ((h * 16 + l) :: ·) := by
  rw [decode, if_pos rfl]
  simp only [hhi, hlo, Option.bind_eq_bind, Option.bind_some, Option.pure_def]
  cases decode rest <;> rfl

/-- What is written without `%` is read as it stands. -/
theorem decode_plain {text : Bytes} (h : percent ∉ text) : decode text = some text := by
  induction text with
  | nil => rfl
  | cons b text ih =>
    have hb : b ≠ percent := fun hb => h (hb ▸ List.mem_cons_self)
    rw [decode_cons hb, ih fun hin => h (List.mem_cons_of_mem _ hin), Option.map_some]

/-- Every escape takes three bytes for one. -/
theorem decode_length {text decoded : Bytes} (h : decode text = some decoded) :
    decoded.length + 2 * text.count percent ≤ text.length := by
  fun_induction decode text generalizing decoded with
  | case1 =>
    cases h
    exact Nat.le_refl _
  | case2 hi lo rest ih =>
    simp only [Option.bind_eq_bind, Option.bind_eq_some_iff, Option.pure_def, Option.some.injEq] at h
    obtain ⟨h, hhi, l, hlo, decoded, hdecoded, rfl⟩ := h
    have hne : hi ≠ percent := by
      rintro rfl
      cases hhi
    have hne' : lo ≠ percent := by
      rintro rfl
      cases hlo
    have := ih hdecoded
    simp only [List.length_cons, List.count_cons_self, List.count_cons_of_ne hne, List.count_cons_of_ne hne']
    omega
  | case3 => cases h
  | case4 b rest hb ih =>
    obtain ⟨decoded, hdecoded, rfl⟩ := Option.map_eq_some_iff.1 h
    have := ih hdecoded
    rw [List.count_cons_of_ne hb]
    simp only [List.length_cons]
    omega

/-- Text that stands for itself has no `%`. -/
theorem decode_eq_self {text : Bytes} : decode text = some text ↔ percent ∉ text := by
  refine ⟨fun h hin => ?_, decode_plain⟩
  have := decode_length h
  have := List.count_pos_iff.2 hin
  omega

/-- Text all of whose escapes are well-formed, and what it stands for. -/
inductive Decodes : Bytes → Bytes → Prop
  | nil : Decodes [] []
  | plain {b : UInt8} {text decoded : Bytes} (h : b ≠ percent) (rest : Decodes text decoded) :
      Decodes (b :: text) (b :: decoded)
  | escape {hi lo h l : UInt8} {text decoded : Bytes} (hhi : hexValue hi = some h) (hlo : hexValue lo = some l)
      (rest : Decodes text decoded) : Decodes (percent :: hi :: lo :: text) ((h * 16 + l) :: decoded)

theorem Decodes.decode {text decoded : Bytes} (h : Decodes text decoded) : decode text = some decoded := by
  induction h with
  | nil => rfl
  | plain hb _ ih => rw [decode_cons hb, ih, Option.map_some]
  | escape hhi hlo _ ih => rw [decode_escape hhi hlo, ih, Option.map_some]

theorem decode_eq_some {text decoded : Bytes} : decode text = some decoded ↔ Decodes text decoded := by
  refine ⟨fun h => ?_, Decodes.decode⟩
  fun_induction Percent.decode text generalizing decoded with
  | case1 =>
    cases h
    exact .nil
  | case2 hi lo rest ih =>
    simp only [Option.bind_eq_bind, Option.bind_eq_some_iff, Option.pure_def, Option.some.injEq] at h
    obtain ⟨h, hhi, l, hlo, decoded, hdecoded, rfl⟩ := h
    exact .escape hhi hlo (ih hdecoded)
  | case3 => cases h
  | case4 b rest hb ih =>
    obtain ⟨decoded, hdecoded, rfl⟩ := Option.map_eq_some_iff.1 h
    exact .plain hb (ih hdecoded)

/-- Text without `%` in front stands for itself. -/
theorem Decodes.of_append {a text decoded : Bytes} (h : percent ∉ a) (hdecodes : Decodes (a ++ text) decoded) :
    ∃ rest, decoded = a ++ rest ∧ Decodes text rest := by
  induction a generalizing decoded with
  | nil => exact ⟨decoded, rfl, hdecodes⟩
  | cons b a ih =>
    rw [List.cons_append] at hdecodes
    generalize hwhole : b :: (a ++ text) = whole at hdecodes
    cases hdecodes with
    | nil => cases hwhole
    | plain _ hrest =>
      cases hwhole
      obtain ⟨rest, rfl, htext⟩ := ih (fun hin => h (List.mem_cons_of_mem _ hin)) hrest
      exact ⟨rest, rfl, htext⟩
    | escape =>
      have hb : b = percent := (List.cons.inj hwhole).1
      exact absurd (hb ▸ List.mem_cons_self ..) h

/-! ## Writing -/

/-- The upper-case digit of a number below 16. -/
def hexDigit (n : Nat) : UInt8 := ((Nat.digitChar n).toUpper).toNat.toUInt8

theorem hexValue_hexDigit : ∀ n < 16, hexValue (hexDigit n) = some n.toUInt8 := by decide

/-- A byte as it stands where it may, and as an escape otherwise. -/
def encodeByte (keep : UInt8 → Bool) (b : UInt8) : Bytes :=
  if keep b then [b] else [percent, hexDigit (b.toNat / 16), hexDigit (b.toNat % 16)]

def encode (keep : UInt8 → Bool) (text : Bytes) : Bytes := text.flatMap (encodeByte keep)

theorem decode_encodeByte {keep : UInt8 → Bool} (hkeep : keep percent = false) (b : UInt8) (rest : Bytes) :
    decode (encodeByte keep b ++ rest) = (decode rest).map (b :: ·) := by
  unfold encodeByte
  split
  · next h =>
    have hb : b ≠ percent := by
      rintro rfl
      rw [hkeep] at h
      cases h
    exact decode_cons hb rest
  · have hlt : b.toNat < 256 := b.toNat_lt
    have hsum : (b.toNat / 16).toUInt8 * 16 + (b.toNat % 16).toUInt8 = b := by
      apply UInt8.toNat_inj.1
      simp only [Nat.toUInt8, UInt8.toNat_add, UInt8.toNat_mul, UInt8.toNat_ofNat', UInt8.toNat_ofNat]
      omega
    have hhi := hexValue_hexDigit (b.toNat / 16) (by omega)
    have hlo := hexValue_hexDigit (b.toNat % 16) (by omega)
    simp only [List.cons_append, List.nil_append]
    rw [decode_escape hhi hlo, hsum]

/-- Decoding gives back what was encoded. -/
theorem decode_encode {keep : UInt8 → Bool} (hkeep : keep percent = false) (text : Bytes) :
    decode (encode keep text) = some text := by
  induction text with
  | nil => rfl
  | cons b text ih =>
    rw [encode, List.flatMap_cons, decode_encodeByte hkeep]
    rw [encode] at ih
    rw [ih, Option.map_some]

end AtriumPortal.Lib.Percent
