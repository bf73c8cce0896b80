import AtriumPortal.Lib.JsonText
import AtriumPortal.ScreenCast.Persist
/-!
# The store file

The JSON that `serde_json` derives for `DiskStore`, character by character and then
as UTF-8: the tag of a source is its `type`, and the selection of an entry is
flattened into it. `fromSlice` reads what `toVec` writes; of other files it may
know fewer than `serde_json`, which also skips blanks and takes the keys in any
order. `fromSlice_toVec` is the round trip.
-/
open AtriumPortal.Lib.JsonText

namespace AtriumPortal.ScreenCast.StoreFile

/-! ## Writing -/

def writeSource : StoredSource → List Char
  | .desktop => text "\x7b\"type\":\"" ++ quoted "desktop" ++ ['}']
  | .output connector =>
    text "\x7b\"type\":\"" ++ quoted "output" ++ text ",\"connector\":\"" ++ quoted connector ++ ['}']

def writeEntry (entry : StoredEntry) : List Char :=
  '{' :: text "\"token\":\"" ++ quoted entry.token ++ text ",\"app_id\":\"" ++ quoted entry.selection.appId ++
    text ",\"source\":" ++ writeSource entry.selection.source ++ text ",\"cursor_mode\":" ++
    Nat.toDigits 10 entry.selection.cursorMode ++ ['}']

/-- The entries after the first, and the closing bracket. -/
def writeRest : List StoredEntry → List Char
  | [] => [']']
  | entry :: entries => ',' :: writeEntry entry ++ writeRest entries

def writeEntries : List StoredEntry → List Char
  | [] => [']']
  | entry :: entries => writeEntry entry ++ writeRest entries

def write (store : DiskStore) : List Char :=
  text "\x7b\"version\":" ++ Nat.toDigits 10 store.version ++ ',' :: text "\"tokens\":[" ++ writeEntries store.tokens ++
    ['}']

def toVec (store : DiskStore) : List UInt8 := (String.ofList (write store)).toByteArray.data.toList

/-! ## Reading -/

def readSource : Reader StoredSource := fun input => do
  let rest ← skip (text "\x7b\"type\":\"") input
  let (tag, rest) ← readString rest
  if tag = "desktop" then return (.desktop, ← skip ['}'] rest)
  else if tag = "output" then
    let rest ← skip (text ",\"connector\":\"") rest
    let (connector, rest) ← readString rest
    return (.output connector, ← skip ['}'] rest)
  else none

def readEntry : Reader StoredEntry := fun input => do
  let rest ← skip ('{' :: text "\"token\":\"") input
  let (token, rest) ← readString rest
  let rest ← skip (text ",\"app_id\":\"") rest
  let (appId, rest) ← readString rest
  let rest ← skip (text ",\"source\":") rest
  let (source, rest) ← readSource rest
  let rest ← skip (text ",\"cursor_mode\":") rest
  let (cursorMode, rest) ← readNat rest
  return (⟨token, appId, source, cursorMode⟩, ← skip ['}'] rest)

/-- Entries until the bracket closes; an entry takes some of the input. -/
def readRest : Nat → Reader (List StoredEntry)
  | _, ']' :: rest => some ([], rest)
  | fuel + 1, ',' :: input => do
    let (entry, rest) ← readEntry input
    let (entries, rest) ← readRest fuel rest
    return (entry :: entries, rest)
  | _, _ => none

def readEntries : Reader (List StoredEntry) := fun input =>
  if input.head? = some ']' then some ([], input.tail)
  else do
    let (entry, rest) ← readEntry input
    let (entries, rest) ← readRest rest.length rest
    return (entry :: entries, rest)

def read (input : List Char) : Option DiskStore := do
  let rest ← skip (text "\x7b\"version\":") input
  let (version, rest) ← readNat rest
  let rest ← skip (',' :: text "\"tokens\":[") rest
  let (tokens, rest) ← readEntries rest
  let rest ← skip ['}'] rest
  if rest.isEmpty then some ⟨version, tokens⟩ else none

def fromSlice (bytes : List UInt8) : Option DiskStore :=
  (String.fromUTF8? ⟨bytes.toArray⟩).bind fun text => read text.toList

/-- `serde_json` on the files this program writes. -/
def serdeJson : Json := ⟨toVec, fromSlice⟩

/-! ## The round trip -/

theorem readSource_write (source : StoredSource) (rest : List Char) :
    readSource (writeSource source ++ rest) = some (source, rest) := by
  have hne : ¬ ("output" = "desktop") := by decide
  cases source <;>
    simp only [readSource, writeSource, List.append_assoc, List.singleton_append, skip_append, skip_singleton,
      readString_quoted, hne, if_true, if_false, Option.bind_eq_bind, Option.bind_some, Option.pure_def]

theorem readEntry_write (entry : StoredEntry) (rest : List Char) :
    readEntry (writeEntry entry ++ rest) = some (entry, rest) := by
  simp only [readEntry, writeEntry, List.append_assoc, List.cons_append, skip_append, skip_cons_append, readString_quoted,
    readSource_write,
    readNat_toDigits _ (by decide : '}'.isDigit = false), Option.bind_eq_bind, Option.bind_some, Option.pure_def]

theorem readRest_write (entries : List StoredEntry) (rest : List Char) {fuel : Nat} (hf : entries.length ≤ fuel) :
    readRest fuel (writeRest entries ++ rest) = some (entries, rest) := by
  induction entries generalizing fuel with
  | nil => simp [writeRest, readRest]
  | cons entry entries ih =>
    obtain ⟨fuel, rfl⟩ : ∃ n, fuel = n + 1 := ⟨fuel - 1, by simp at hf; omega⟩
    simp only [writeRest, List.cons_append, List.append_assoc, readRest, readEntry_write,
      ih (Nat.le_of_succ_le_succ hf), Option.bind_eq_bind, Option.bind_some, Option.pure_def]

theorem length_writeRest (entries : List StoredEntry) : entries.length ≤ (writeRest entries).length := by
  induction entries with
  | nil => simp
  | cons entry entries ih => simp [writeRest]; omega

theorem readEntries_write (entries : List StoredEntry) (rest : List Char) :
    readEntries (writeEntries entries ++ rest) = some (entries, rest) := by
  cases entries with
  | nil => simp [writeEntries, readEntries]
  | cons entry entries =>
    have hfuel : entries.length ≤ (writeRest entries ++ rest).length := by
      have := length_writeRest entries
      rw [List.length_append]
      omega
    have hopen : (writeEntry entry ++ (writeRest entries ++ rest)).head? ≠ some ']' := by simp [writeEntry]
    simp only [writeEntries, List.append_assoc, readEntries, hopen, if_false, readEntry_write,
      readRest_write entries rest hfuel, Option.bind_eq_bind, Option.bind_some, Option.pure_def]

theorem read_write (store : DiskStore) : read (write store) = some store := by
  simp only [read, write, List.append_assoc, List.cons_append, skip_append, skip_cons_append, skip_singleton,
    readNat_toDigits _ (by decide : ','.isDigit = false), readEntries_write, List.isEmpty_nil, if_true,
    Option.bind_eq_bind, Option.bind_some]

theorem fromSlice_toVec (store : DiskStore) : fromSlice (toVec store) = some store := by
  have htext : ∀ s : String, String.fromUTF8? s.toByteArray = some s := fun s => by
    simp [String.fromUTF8?, String.isValidUTF8, String.fromUTF8]
  show (String.fromUTF8? (String.ofList (write store)).toByteArray).bind (fun text => read text.toList) = some store
  rw [htext, Option.bind_some, String.toList_ofList, read_write]

/-! ## The size of the file -/

theorem length_le_encoded (cs : List Char) : cs.length ≤ (String.ofList cs).toByteArray.data.toList.length := by
  rw [String.toByteArray_ofList]
  induction cs with
  | nil => exact Nat.zero_le _
  | cons c cs ih =>
    have hpos : 0 < (String.utf8EncodeChar c).length := List.length_pos_iff.2 String.utf8EncodeChar_ne_nil
    simp only [List.utf8Encode, List.flatMap_cons, List.data_toByteArray, List.length_append, List.length_cons] at ih ⊢
    omega

theorem length_lt_quoted (s : String) : s.length < (quoted s).length := by
  have hchar : ∀ c, 1 ≤ (escapeChar c).length := by
    intro c
    unfold escapeChar
    repeat' split
    all_goals simp
  have hall : ∀ cs : List Char, cs.length ≤ (cs.flatMap escapeChar).length := by
    intro cs
    induction cs with
    | nil => exact Nat.zero_le _
    | cons c cs ih =>
      have := hchar c
      simp only [List.flatMap_cons, List.length_append, List.length_cons]
      omega
  have := hall s.toList
  rw [String.length_toList] at this
  simp only [quoted, List.length_append, List.length_cons]
  omega

/-- The file is longer than each application id in it. -/
theorem length_appId_lt {store : DiskStore} {entry : StoredEntry} (h : entry ∈ store.tokens) :
    entry.selection.appId.length < (toVec store).length := by
  have hentry : ∀ e : StoredEntry, e.selection.appId.length < (writeEntry e).length := by
    intro e
    have := length_lt_quoted e.selection.appId
    simp only [writeEntry, List.length_append]
    omega
  have hrest : ∀ entries : List StoredEntry, entry ∈ entries →
      entry.selection.appId.length < (writeRest entries).length := by
    intro entries hin
    induction entries with
    | nil => cases hin
    | cons e entries ih =>
      simp only [writeRest, List.length_append, List.length_cons]
      rcases List.mem_cons.1 hin with rfl | hin
      · have := hentry entry
        omega
      · have := ih hin
        omega
  have hentries : entry.selection.appId.length < (writeEntries store.tokens).length := by
    cases htokens : store.tokens with
    | nil => rw [htokens] at h; cases h
    | cons e entries =>
      rw [htokens] at h
      simp only [writeEntries, List.length_append]
      rcases List.mem_cons.1 h with rfl | h
      · have := hentry entry
        omega
      · have := hrest entries h
        omega
  have hwrite : entry.selection.appId.length < (write store).length := by
    simp only [write, List.length_append]
    omega
  exact Nat.lt_of_lt_of_le hwrite (length_le_encoded _)

end AtriumPortal.ScreenCast.StoreFile
