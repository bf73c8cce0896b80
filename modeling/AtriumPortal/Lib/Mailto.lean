import AtriumPortal.Lib.Percent
import Mathlib.Data.List.TakeDrop
import Mathlib.Data.List.TakeWhile
/-!
# Mailto URIs

The grammar of `mailto` URIs over bytes: `mailto:`, addresses between commas, and after a
`?` header fields between `&`. What is read of an address or a field is percent-decoded.
-/

namespace AtriumPortal.Lib.Mailto

open AtriumPortal.Lib.Path (Bytes)
open AtriumPortal.Lib.Percent (percent)

/-- The byte of an ASCII character. -/
abbrev ascii (c : Char) : UInt8 := c.toNat.toUInt8

def alpha (b : UInt8) : Bool := (ascii 'a' ≤ b && b ≤ ascii 'z') || (ascii 'A' ≤ b && b ≤ ascii 'Z')
def digit (b : UInt8) : Bool := ascii '0' ≤ b && b ≤ ascii '9'
def unreserved (b : UInt8) : Bool := alpha b || digit b || ['-', '.', '_', '~'].any (ascii · = b)

/-- A visible ASCII character. -/
def vchar (b : UInt8) : Bool := 33 ≤ b && b ≤ 126

/-! ## Addresses -/

/-- A character of an atom. Bytes of other characters than ASCII are internationalised text. -/
def atext (b : UInt8) : Bool := alpha b || digit b || 128 ≤ b || "!#$%&'*+-/=?^_`\x7b|\x7d~".toList.any (ascii · = b)

/-- Atoms between dots. -/
def dotAtom (text : Bytes) : Bool := (text.splitOn (ascii '.')).all fun atom => atom ≠ [] && atom.all atext

/-- A quoted string's text, after its first quote: what follows its last one. -/
def afterQuoted : Bytes → Option Bytes
  | [] => none
  | b :: rest =>
    if b = ascii '"' then some rest
    else if b = ascii '\\' then
      match rest with
      | [] => none
      | c :: rest => if vchar c then afterQuoted rest else none
    else if vchar b || 128 ≤ b then afterQuoted rest
    else none

/-- A character between the brackets of a domain. -/
def dtext (b : UInt8) : Bool := vchar b && b ≠ ascii '[' && b ≠ ascii '\\' && b ≠ ascii ']'

def domain (text : Bytes) : Bool :=
  dotAtom text ||
    match text with
    | [] => false
    | b :: rest => b = ascii '[' && rest.getLast? = some (ascii ']') && rest.dropLast.all dtext

/-- `local-part "@" domain`. -/
def addrSpec (text : Bytes) : Bool :=
  match text with
  | [] => false
  | b :: rest =>
    if b = ascii '"' then
      match afterQuoted rest with
      | some (at_ :: rest) => at_ = ascii '@' && domain rest
      | _ => false
    else
      match text.span (· ≠ ascii '@') with
      | (name, _ :: rest) => dotAtom name && domain rest
      | _ => false

/-- What may stand in the addresses as it is. -/
def raw (b : UInt8) : Bool := unreserved b || ['!', '$', '\'', '(', ')', '*', '+', ':', '@'].any (ascii · = b)

/-- An address that is written as it stands. -/
def Plain (address : Bytes) : Prop := address.all raw = true ∧ addrSpec address = true

instance (address : Bytes) : Decidable (Plain address) := inferInstanceAs (Decidable (_ ∧ _))

/-! ## Reading -/

structure Mail where
  addresses : List Bytes
  fields : List (Bytes × Bytes)
  deriving DecidableEq, Repr

def readAddress (text : Bytes) : Option Bytes :=
  if text.all (fun b => raw b || b = percent) then (Percent.decode text).filter (addrSpec ·) else none

/-- What may stand in a field as it is. -/
def qchar (b : UInt8) : Bool :=
  unreserved b || ['!', '$', '\'', '(', ')', '*', '+', ',', ';', ':', '@'].any (ascii · = b)

def readQuery (text : Bytes) : Option Bytes :=
  if text.all (fun b => qchar b || b = percent) then Percent.decode text else none

def readField (text : Bytes) : Option (Bytes × Bytes) :=
  match text.span (· ≠ ascii '=') with
  | (name, _ :: value) => do return (← readQuery name, ← readQuery value)
  | _ => none

def readAddresses (text : Bytes) : Option (List Bytes) :=
  if text = [] then some [] else (text.splitOn (ascii ',')).mapM readAddress

/-- The header fields, with the `?` before them. -/
def readFields : Bytes → Option (List (Bytes × Bytes))
  | [] => some []
  | _ :: query => (query.splitOn (ascii '&')).mapM readField

def scheme : Bytes := "mailto:".toList.map ascii

def lower (b : UInt8) : UInt8 := if ascii 'A' ≤ b ∧ b ≤ ascii 'Z' then b + 32 else b

def read (uri : Bytes) : Option Mail :=
  if (uri.take scheme.length).map lower = scheme then
    match (uri.drop scheme.length).span (· ≠ ascii '?') with
    | (head, query) => do return ⟨← readAddresses head, ← readFields query⟩
  else none

/-! ## Addresses that are written as they stand -/

def join (addresses : List Bytes) : Bytes := [ascii ','].intercalate addresses

theorem readAddress_plain {address : Bytes} (h : Plain address) : readAddress address = some address := by
  have hall : address.all (fun b => raw b || b = percent) = true := by
    refine List.all_eq_true.2 fun b hb => ?_
    rw [List.all_eq_true.1 h.1 b hb, Bool.true_or]
  have hpercent : percent ∉ address := fun hin => absurd (List.all_eq_true.1 h.1 _ hin) (by decide)
  rw [readAddress, if_pos hall, Percent.decode_plain hpercent, Option.filter_some, if_pos h.2]

/-- Only a plain address is read as itself. -/
theorem readAddress_eq_self {address : Bytes} : readAddress address = some address ↔ Plain address := by
  refine ⟨fun h => ?_, readAddress_plain⟩
  unfold readAddress at h
  split at h
  · next hall =>
    obtain ⟨hdecode, hspec⟩ := Option.filter_eq_some_iff.1 h
    have hpercent := Percent.decode_eq_self.1 hdecode
    refine ⟨List.all_eq_true.2 fun b hb => ?_, hspec⟩
    have hb' : raw b = true ∨ b = percent := by simpa using List.all_eq_true.1 hall b hb
    exact hb'.resolve_right fun heq => hpercent (heq ▸ hb)
  · cases h

theorem mapM_eq_some {α β : Type} {f : α → Option β} {l : List α} {l' : List β} :
    l.mapM f = some l' ↔ l.map f = l'.map some := by
  induction l generalizing l' with
  | nil => cases l' <;> simp
  | cons a l ih =>
    rw [List.mapM_cons, List.map_cons]
    constructor
    · intro h
      obtain ⟨b, hb, h⟩ := Option.bind_eq_some_iff.1 h
      obtain ⟨rest, hrest, h⟩ := Option.bind_eq_some_iff.1 h
      cases h
      rw [List.map_cons, hb, ih.1 hrest]
    · intro h
      cases l' with
      | nil => cases h
      | cons b l' =>
        obtain ⟨hb, hrest⟩ := List.cons.inj h
        rw [hb, ih.2 hrest]
        rfl

theorem join_cons (a b : Bytes) (rest : List Bytes) : join (a :: b :: rest) = a ++ ascii ',' :: join (b :: rest) := by
  simp [join, List.intercalate_cons_cons]

/-- Splitting splits every part on its own. -/
theorem splitOn_join {addresses : List Bytes} (h : addresses ≠ []) :
    (join addresses).splitOn (ascii ',') = addresses.flatMap (·.splitOn (ascii ',')) := by
  induction addresses with
  | nil => exact absurd rfl h
  | cons a rest ih =>
    cases rest with
    | nil => simp [join]
    | cons b rest =>
      rw [join_cons, List.splitOn_append_cons_self, ih (List.cons_ne_nil _ _)]
      rfl

theorem splitOn_length {text : Bytes} {c : UInt8} : (text.splitOn c).length = 1 ↔ c ∉ text := by
  constructor
  · intro h hin
    obtain ⟨a, b, rfl⟩ := List.append_of_mem hin
    rw [List.splitOn_append_cons_self, List.length_append] at h
    have ha := List.length_pos_iff.2 (List.splitOn_ne_nil c a)
    have hb := List.length_pos_iff.2 (List.splitOn_ne_nil c b)
    omega
  · intro h
    rw [List.splitOn_eq_singleton h, List.length_singleton]

/-- The parts come back in their number only without commas. -/
theorem flatMap_splitOn_length {addresses : List Bytes} :
    addresses.length ≤ (addresses.flatMap (·.splitOn (ascii ','))).length ∧
      ((addresses.flatMap (·.splitOn (ascii ','))).length = addresses.length → ∀ a ∈ addresses, ascii ',' ∉ a) := by
  induction addresses with
  | nil => exact ⟨Nat.le_refl _, fun _ => nofun⟩
  | cons a rest ih =>
    have ha := List.length_pos_iff.2 (List.splitOn_ne_nil (ascii ',') a)
    rw [List.flatMap_cons, List.length_append, List.length_cons]
    refine ⟨by omega, fun h => List.forall_mem_cons.2 ⟨?_, ih.2 (by omega)⟩⟩
    exact splitOn_length.1 (by omega)

theorem mem_join {c : UInt8} (hc : c ≠ ascii ',') {addresses : List Bytes} (h : c ∈ join addresses) :
    ∃ a ∈ addresses, c ∈ a := by
  induction addresses with
  | nil => cases h
  | cons a rest ih =>
    cases rest with
    | nil => exact ⟨a, List.mem_cons_self, by simpa [join] using h⟩
    | cons b rest =>
      rw [join_cons, List.mem_append, List.mem_cons] at h
      rcases h with h | rfl | h
      · exact ⟨a, List.mem_cons_self, h⟩
      · exact absurd rfl hc
      · obtain ⟨x, hx, hin⟩ := ih h
        exact ⟨x, List.mem_cons_of_mem _ hx, hin⟩

/-- What is read of addresses that were joined. -/
theorem readAddresses_join {addresses : List Bytes} :
    readAddresses (join addresses) = some addresses ↔ ∀ a ∈ addresses, Plain a := by
  by_cases hnil : addresses = []
  · subst hnil
    simp [readAddresses, join]
  constructor
  · intro h
    unfold readAddresses at h
    split at h
    · exact absurd (Option.some.inj h).symm hnil
    · rw [splitOn_join hnil] at h
      have hlength := congrArg List.length (mapM_eq_some.1 h)
      rw [List.length_map, List.length_map] at hlength
      have hcommas := flatMap_splitOn_length.2 hlength
      have hparts : addresses.flatMap (·.splitOn (ascii ',')) = addresses := by
        rw [← splitOn_join hnil]
        exact List.splitOn_intercalate _ hcommas hnil
      rw [hparts] at h
      intro a ha
      have hmap := mapM_eq_some.1 h
      exact readAddress_eq_self.1 (List.map_inj_left.1 hmap a ha)
  · intro h
    have hcommas : ∀ a ∈ addresses, ascii ',' ∉ a := fun a ha hin =>
      absurd (List.all_eq_true.1 (h a ha).1 _ hin) (by decide)
    have hne : join addresses ≠ [] := by
      obtain ⟨a, rest, rfl⟩ := List.exists_cons_of_ne_nil hnil
      cases rest with
      | nil =>
        rintro hjoin
        obtain rfl : a = [] := by simpa [join] using hjoin
        exact absurd (h [] List.mem_cons_self).2 (by decide)
      | cons b rest => simp [join_cons]
    rw [readAddresses, if_neg hne, join, List.splitOn_intercalate _ hcommas hnil, mapM_eq_some]
    exact List.map_congr_left fun a ha => readAddress_plain (h a ha)

/-- A list of addresses is read back, without a header field, iff each of them is plain. -/
theorem read_join_iff (addresses : List Bytes) :
    read (scheme ++ join addresses) = some ⟨addresses, []⟩ ↔ ∀ a ∈ addresses, Plain a := by
  have hscheme : ((scheme ++ join addresses).take scheme.length).map lower = scheme := by
    rw [List.take_left]
    decide
  rw [read, if_pos hscheme, List.drop_left, List.span_eq_takeWhile_dropWhile, ← readAddresses_join]
  constructor
  · intro h
    obtain ⟨read, hread, h⟩ := Option.bind_eq_some_iff.1 h
    obtain ⟨fields, hfields, h⟩ := Option.bind_eq_some_iff.1 h
    cases h
    have hquery : (join addresses).dropWhile (· ≠ ascii '?') = [] := by
      cases hdrop : (join addresses).dropWhile (· ≠ ascii '?') with
      | nil => rfl
      | cons b query =>
        rw [hdrop] at hfields
        have hmap := mapM_eq_some.1 hfields
        exact absurd (List.map_eq_nil_iff.1 hmap) (List.splitOn_ne_nil _ _)
    rwa [List.takeWhile_eq_self_iff.2 (List.dropWhile_eq_nil_iff.1 hquery)] at hread
  · intro h
    have hquery : ∀ b ∈ join addresses, decide (b ≠ ascii '?') = true := by
      intro b hb
      refine decide_eq_true fun heq => ?_
      obtain ⟨a, ha, hmem⟩ := mem_join (by rw [heq]; decide) hb
      have hraw := List.all_eq_true.1 (readAddresses_join.1 h a ha).1 _ hmem
      rw [heq] at hraw
      exact absurd hraw (by decide)
    rw [List.takeWhile_eq_self_iff.2 hquery, List.dropWhile_eq_nil_iff.2 hquery]
    simp [h, readFields]

end AtriumPortal.Lib.Mailto
