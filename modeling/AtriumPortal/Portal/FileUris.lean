import AtriumPortal.Lib.Text
import AtriumPortal.Portal.FileChooser
/-!
# File URIs

`files.rs`: what `path_from_file_uri` accepts, and that it inverts `file_uri`.
-/
open AtriumPortal.Lib AtriumPortal.Lib.Path
open AtriumPortal.Screenshot (fileUri)

namespace AtriumPortal.Portal

/-- An ASCII text is taken off the bytes of a URI exactly if it is taken off the URI. -/
theorem stripPrefix_bytes {head : String} (hascii : head.toList.all (·.toNat < 0x80) = true) {uri : String} {tail : Bytes} :
    stripPrefix (bytes head) (bytes uri) = some tail ↔ ∃ rest, uri = head ++ rest ∧ tail = bytes rest := by
  unfold stripPrefix
  constructor
  · intro h
    split at h
    · next hprefix =>
      obtain ⟨more, hmore⟩ := List.isPrefixOf_iff_prefix.1 hprefix
      rw [Option.some.injEq, ← hmore, List.drop_left] at h
      rw [h, bytes_eq, bytes_eq] at hmore
      obtain ⟨rest, huri, htail⟩ :=
        Text.ascii_prefix (fun c hc => of_decide_eq_true (List.all_eq_true.1 hascii c hc)) hmore
      refine ⟨String.ofList rest, ?_, ?_⟩
      · rw [← String.toList_inj, String.toList_append, huri, String.toList_ofList]
      · rw [htail, bytes_eq, String.toList_ofList]
    · cases h
  · rintro ⟨rest, rfl, rfl⟩
    rw [bytes_append, if_pos (List.isPrefixOf_iff_prefix.2 (List.prefix_append ..)), List.drop_left]

/-- The text behind the empty or the local authority. -/
inductive Local (uri : String) (rest : String) : Prop
  | empty (h : uri = "file:///" ++ rest)
  | localhost (h : uri = "file://localhost/" ++ rest)

theorem bytes_slash (rest : String) : bytes ("/" ++ rest) = slash :: bytes rest := by
  rw [bytes_append]
  rfl

/-- The part that is decoded starts with the slash behind the authority. -/
theorem filePart_absolute {uri : String} {tail : Bytes} :
    filePart (bytes uri) = some (slash :: tail) ↔ ∃ rest, Local uri rest ∧ tail = bytes rest := by
  unfold filePart
  constructor
  · intro h
    cases hlocal : stripPrefix (bytes "file://localhost/") (bytes uri) with
    | some found =>
      obtain ⟨rest, huri, rfl⟩ := (stripPrefix_bytes (by decide)).1 hlocal
      rw [hlocal] at h
      cases h
      exact ⟨rest, .localhost huri, rfl⟩
    | none =>
      rw [hlocal, Option.map_none, Option.none_or] at h
      obtain ⟨whole, huri, hwhole⟩ := (stripPrefix_bytes (by decide)).1 h
      rw [← List.singleton_append, bytes_eq] at hwhole
      have hslash : ['/'].flatMap String.utf8EncodeChar = [slash] := by decide
      rw [← hslash] at hwhole
      obtain ⟨rest, hrest, rfl⟩ := Text.ascii_prefix (List.forall_mem_singleton.2 (by decide)) hwhole
      refine ⟨String.ofList rest, .empty ?_, by rw [bytes_eq, String.toList_ofList]⟩
      have hsplit : whole = "/" ++ String.ofList rest := by
        rw [← String.toList_inj, hrest, String.toList_append, @String.toList_ofList rest]
        rfl
      rw [huri, hsplit, ← String.append_assoc]
      rfl
  · rintro ⟨rest, huri | huri, rfl⟩
    · have hno : stripPrefix (bytes "file://localhost/") (bytes ("file:///" ++ rest)) = none := by
        rw [bytes_append]
        rfl
      have hfile : ("file:///" ++ rest : String) = "file://" ++ ("/" ++ rest) := by
        rw [← String.append_assoc]
        rfl
      rw [huri, hno, Option.map_none, Option.none_or, hfile, (stripPrefix_bytes (by decide)).2 ⟨_, rfl, rfl⟩, bytes_slash]
    · rw [huri, (stripPrefix_bytes (by decide)).2 ⟨rest, rfl, rfl⟩]
      rfl

/-- `path_from_file_uri` accepts local URIs whose escapes are well-formed, and gives what they stand for. -/
theorem pathFromFileUri_eq_some {uri : String} {path : Bytes} : pathFromFileUri uri = some path ↔
    ∃ rest decoded, Local uri rest ∧ Percent.Decodes (bytes rest) decoded ∧ path = slash :: decoded ∧ 0 ∉ path := by
  have hslash : slash ≠ Percent.percent := by decide
  simp only [pathFromFileUri, Option.bind_eq_bind, Option.bind_eq_some_iff]
  constructor
  · rintro ⟨part, hpart, h⟩
    split at h
    · cases h
    · next hhead =>
      rw [not_not] at hhead
      obtain ⟨tail, rfl⟩ := List.head?_eq_some_iff.1 hhead
      obtain ⟨rest, hlocal, rfl⟩ := filePart_absolute.1 hpart
      obtain ⟨found, hdecode, hnul⟩ := Option.bind_eq_some_iff.1 h
      rw [Percent.decode_cons hslash] at hdecode
      obtain ⟨decoded, hdecoded, rfl⟩ := Option.map_eq_some_iff.1 hdecode
      split at hnul
      · cases hnul
      · next hzero =>
        cases hnul
        exact ⟨rest, decoded, hlocal, Percent.decode_eq_some.1 hdecoded, rfl, hzero⟩
  · rintro ⟨rest, decoded, hlocal, hdecodes, rfl, hzero⟩
    refine ⟨slash :: bytes rest, filePart_absolute.2 ⟨rest, hlocal, rfl⟩, ?_⟩
    rw [if_neg (by simp), Percent.decode_cons hslash, hdecodes.decode, Option.map_some, Option.bind_some, if_neg hzero]

/-- File URIs round-trip for all paths, and what is accepted at all is well-formed and local. -/
theorem fileUri_inverted :
    (∀ path : Bytes, isAbsolute path = true → 0 ∉ path → pathFromFileUri (fileUri path) = some path) ∧
    ∀ uri path, pathFromFileUri uri = some path ↔ ∃ rest decoded,
      Local uri rest ∧ Percent.Decodes (bytes rest) decoded ∧ path = slash :: decoded ∧ 0 ∉ path :=
  ⟨fun _ habs hnul => pathFromFileUri_fileUri habs hnul, fun _ _ => pathFromFileUri_eq_some⟩

theorem fileUri_inverted_bytes : pathFromFileUri (fileUri [slash, 255, 37, 32]) = some [slash, 255, 37, 32] :=
  fileUri_inverted.1 [slash, 255, 37, 32] (by decide) (by decide)

end AtriumPortal.Portal
