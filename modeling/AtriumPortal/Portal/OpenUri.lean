import AtriumPortal.Apps.Exec
import AtriumPortal.Portal.FileUris
import AtriumPortal.Portal.Notification
import Mathlib.Data.List.ReduceOption
/-!
# Opening a URI

`open_uri.rs`: `classify` reads a file URI with `path_from_file_uri`, the launched
application gets it through the decoder of `apps/exec.rs`. `decoders_agree_iff`: where
the two agree.
-/
open AtriumPortal.Lib AtriumPortal.Lib.Path AtriumPortal.Apps
open AtriumPortal.Portal.Notifications (isControl)

namespace AtriumPortal.Portal.OpenUri

def maxUriBytes : Nat := 8 * 1024

/-- A classified URI: a decoded local path, or a lowercased scheme name. -/
inductive Target where
  | file (path : Bytes)
  | scheme (name : String)
  deriving DecidableEq, Repr

/-- Why a URI is refused; the texts are only logged. -/
inductive UriError where
  | emptyOrOversized
  | controlCharacters
  | noScheme
  | malformedScheme (scheme : String)
  | notLocal
  deriving DecidableEq, Repr

/-- A letter, then letters, digits, `+`, `-` and `.`. -/
def validScheme : List Char → Bool
  | [] => false
  | c :: rest => c.isAlpha && rest.all fun c => c.isAlphanum || c = '+' || c = '-' || c = '.'

/-- `eq_ignore_ascii_case("file")`. -/
def isFile (scheme : List Char) : Bool := scheme.map Char.toLower = "file".toList

def classify (uri : String) : Except UriError Target :=
  if uri = "" ∨ maxUriBytes < uri.utf8ByteSize then .error .emptyOrOversized
  else if uri.toList.any isControl then .error .controlCharacters
  else
    match Text.splitOnce ':' uri.toList with
    | none => .error .noScheme
    | some (scheme, rest) =>
      if !validScheme scheme then .error (.malformedScheme (String.ofList scheme))
      else if isFile scheme then
        -- `path_from_file_uri` expects the canonical lowercase scheme
        match pathFromFileUri (String.ofList ("file:".toList ++ rest)) with
        | some path => .ok (.file path)
        | none => .error .notLocal
      else .ok (.scheme (String.ofList (scheme.map Char.toLower)))

/-! ## The decoder of the launcher -/

theorem charBoundary_text (text : List Char) : charBoundary (text.flatMap String.utf8EncodeChar) = true := by
  have hall : ∀ n < 256, n.toUInt8.IsUTF8FirstByte → charBoundary [n.toUInt8] = true := by decide +kernel
  cases text with
  | nil => rfl
  | cons c text =>
    have hfirst := @UInt8.isUTF8FirstByte_getElem_zero_utf8EncodeChar c
    obtain ⟨b, rest, hc⟩ := List.exists_cons_of_ne_nil (show String.utf8EncodeChar c ≠ [] by simp)
    have hb : b.toNat.toUInt8 = b := by simp
    simp only [hc, List.getElem_cons_zero] at hfirst
    rw [← hb] at hfirst
    have hboundary := hall b.toNat b.toNat_lt hfirst
    rw [hb] at hboundary
    rw [List.flatMap_cons, hc]
    exact hboundary

theorem hexNibble_eq (b : UInt8) : hexNibble b = Percent.hexValue b := rfl

theorem decodeEscapes_plain {a : Bytes} (h : Percent.percent ∉ a) (rest : Bytes) :
    decodeEscapes (a ++ rest) = (decodeEscapes rest).map (a ++ ·) := by
  induction a with
  | nil => cases h : decodeEscapes rest <;> simp [h]
  | cons b a ih =>
    have hb : b ≠ 37 := fun hb => h (hb ▸ List.mem_cons_self ..)
    rw [List.cons_append, decodeEscapes.eq_def]
    simp only [if_neg hb]
    rw [ih fun hin => h (List.mem_cons_of_mem _ hin), Option.map_map]
    rfl

/-- A hexadecimal digit is a character of its own. -/
theorem hexValue_ascii : ∀ b : UInt8, (Percent.hexValue b).isSome = true → b < 0x80 ∧ b ≠ 43 := by
  intro b h
  have hall : ∀ n < 256, (Percent.hexValue n.toUInt8).isSome = true → n.toUInt8 < 0x80 ∧ n.toUInt8 ≠ 43 := by
    decide +kernel
  have hb : b.toNat.toUInt8 = b := by simp
  rw [← hb] at h ⊢
  exact hall b.toNat b.toNat_lt h

/-- Where all escapes are well-formed the launcher's decoder decodes the same bytes. -/
theorem decodeEscapes_of_decodes {text : List Char} {decoded : Bytes}
    (h : Percent.Decodes (text.flatMap String.utf8EncodeChar) decoded) :
    decodeEscapes (text.flatMap String.utf8EncodeChar) = some decoded := by
  induction hlen : text.length using Nat.strongRecOn generalizing text decoded with
  | ind n ih =>
    cases text with
    | nil =>
      cases h
      rfl
    | cons c text =>
      rw [List.length_cons] at hlen
      rw [List.flatMap_cons] at h ⊢
      by_cases hc : c = '%'
      · have hpercent : String.utf8EncodeChar c = [Percent.percent] := by
          rw [hc]
          decide
        rw [hpercent, List.singleton_append] at h ⊢
        generalize hmore : text.flatMap String.utf8EncodeChar = more at h ⊢
        cases h with
        | plain hb => exact absurd rfl hb
        | @escape hi lo x y after decoded hhi hlo hrest =>
          obtain ⟨hhiLow, hplus⟩ := hexValue_ascii hi (by rw [hhi]; rfl)
          obtain ⟨hloLow, -⟩ := hexValue_ascii lo (by rw [hlo]; rfl)
          -- both digits are characters, so what follows them is a text
          obtain ⟨digits, rfl, hdigits⟩ := Text.ascii_head hhiLow hmore
          obtain ⟨rest, rfl, rfl⟩ := Text.ascii_head hloLow hdigits.symm
          have hvalue : fromStrRadix hi lo = some (x * 16 + y) := by
            rw [fromStrRadix, if_neg hplus, hexNibble_eq, hexNibble_eq, hhi, hlo]
            rfl
          have hboundary := charBoundary_text rest
          have hdecoded := ih rest.length (by simp only [List.length_cons] at hlen; omega) hrest rfl
          rw [decodeEscapes.eq_def]
          simp only [if_true, hboundary, hvalue, hdecoded, Option.map_some]
      · have hplain : Percent.percent ∉ String.utf8EncodeChar c := by
          intro hin
          apply hc
          rw [← Char.ofNat_toNat c, Text.ascii_mem_encodeChar (by decide) hin]
          rfl
        obtain ⟨rest, rfl, hrest⟩ := h.of_append hplain
        rw [decodeEscapes_plain hplain, ih text.length (by omega) hrest rfl, Option.map_some]

/-! ## One URI in both decoders -/

theorem stripText_append (head text : List Char) : stripText head (head ++ text) = some text := by
  rw [stripText, if_pos (List.isPrefixOf_iff_prefix.2 (List.prefix_append ..)), List.drop_left]

/-- What is not written `file://` is no file for the launcher. -/
theorem uriToPath_other {uri : String} (h : ¬ "file://".toList <+: uri.toList) : uriToPath uri = some none := by
  rw [uriToPath, stripText, if_neg fun hprefix => h (List.isPrefixOf_iff_prefix.1 hprefix)]

theorem percentDecode_slash {rest : String} {decoded : Bytes} (h : Percent.Decodes (bytes rest) decoded) :
    percentDecode ('/' :: rest.toList) = some (String.fromUTF8? ⟨(slash :: decoded).toArray⟩) := by
  have hslash : ('/' :: rest.toList).flatMap String.utf8EncodeChar = slash :: bytes rest := by
    rw [List.flatMap_cons, bytes_eq]
    rfl
  have hdecodes : Percent.Decodes (('/' :: rest.toList).flatMap String.utf8EncodeChar) (slash :: decoded) := by
    rw [hslash]
    exact .plain (by decide) h
  rw [percentDecode, bytes_eq, String.toList_ofList, decodeEscapes_of_decodes hdecodes, Option.map_some]

/-- The launcher finds the path of a local URI, unless it is no text. -/
theorem uriToPath_local {uri rest : String} {decoded : Bytes} (hlocal : Local uri rest)
    (h : Percent.Decodes (bytes rest) decoded) :
    uriToPath uri = some (String.fromUTF8? ⟨(slash :: decoded).toArray⟩) := by
  rcases hlocal with rfl | rfl
  · have hsplit : ("file:///" ++ rest).toList = "file://".toList ++ '/' :: rest.toList := by
      rw [String.toList_append]
      rfl
    have hother : stripText "localhost".toList ('/' :: rest.toList) = none := rfl
    rw [uriToPath, hsplit, stripText_append]
    simp only [hother, Option.getD_none, List.head?_cons, if_true]
    exact percentDecode_slash h
  · have hsplit : ("file://localhost/" ++ rest).toList = "file://".toList ++ ("localhost".toList ++ '/' :: rest.toList) := by
      rw [String.toList_append]
      rfl
    rw [uriToPath, hsplit, stripText_append]
    simp only [stripText_append, Option.getD_some, List.head?_cons, if_true]
    exact percentDecode_slash h

def Accepted (uri : String) : Prop := ∃ target, classify uri = .ok target

/-- A URI that is written `file:` is accepted as a local file only. -/
theorem accepted_file {uri : String} {rest : List Char} (huri : uri.toList = "file:".toList ++ rest) (h : Accepted uri) :
    ∃ path, classify uri = .ok (.file path) ∧ pathFromFileUri uri = some path := by
  obtain ⟨target, htarget⟩ := h
  have hsplit : Text.splitOnce ':' uri.toList = some ("file".toList, rest) := by
    rw [huri]
    exact @Text.splitOnce_append ':' "file".toList (by decide) rest
  have hsame : String.ofList ("file:".toList ++ rest) = uri := by rw [← huri, String.ofList_toList]
  rw [classify, hsplit] at htarget ⊢
  split at htarget
  · cases htarget
  next hsize =>
  split at htarget
  · cases htarget
  next hcontrol =>
  have hvalid : validScheme "file".toList = true := by decide
  have hfile : isFile "file".toList = true := by decide
  simp only [hvalid, hfile, hsame, Bool.not_true, Bool.false_eq_true, if_false, if_true] at htarget
  rw [if_neg hsize, if_neg hcontrol]
  simp only [hvalid, hfile, hsame, Bool.not_true, Bool.false_eq_true, if_false, if_true]
  cases hpath : pathFromFileUri uri with
  | some path => exact ⟨path, rfl, rfl⟩
  | none =>
    rw [hpath] at htarget
    cases htarget

theorem uriToPath_file {uri : String} {path : Bytes} (h : pathFromFileUri uri = some path) :
    uriToPath uri = some (String.fromUTF8? ⟨path.toArray⟩) := by
  obtain ⟨rest, decoded, hlocal, hdecodes, rfl, -⟩ := pathFromFileUri_eq_some.1 h
  exact uriToPath_local hlocal hdecodes

/-- No accepted URI stops the launcher's decoder. -/
theorem uriToPath_accepted {uri : String} (h : Accepted uri) : (uriToPath uri).isSome = true := by
  by_cases hfile : "file://".toList <+: uri.toList
  · obtain ⟨rest, huri⟩ := hfile
    have hscheme : uri.toList = "file:".toList ++ ("//".toList ++ rest) := by
      rw [← huri]
      rfl
    obtain ⟨path, -, hpath⟩ := accepted_file hscheme h
    rw [uriToPath_file hpath]
    rfl
  · rw [uriToPath_other hfile]
    rfl

/-! ## What the application gets -/

/-- A line with a code for files passes the path as the argument for the URI, byte for byte. -/
structure Passes (uri : String) (path : Bytes) : Prop where
  /-- `%f` as a word of its own, which takes the first URI. -/
  single : ∀ exec before after rest argv, splitExec exec = before ++ "%f" :: after →
    expandExec exec (uri :: rest) = some argv →
    ∃ argument front back, bytes argument = path ∧ argv = front.1 ++ argument :: back.1 ∧
      expandTokens (uri :: rest) before = some front ∧ expandTokens (uri :: rest) after = some back
  /-- `%F` as a word of its own, which takes all of them. -/
  many : ∀ exec before after near far argv, splitExec exec = before ++ "%F" :: after →
    expandExec exec (near ++ uri :: far) = some argv →
    ∃ argument front back nearPaths farPaths, bytes argument = path ∧
      argv = front.1 ++ (nearPaths ++ argument :: farPaths) ++ back.1 ∧
      paths near = some nearPaths ∧ paths far = some farPaths ∧
      expandTokens (near ++ uri :: far) before = some front ∧ expandTokens (near ++ uri :: far) after = some back

/-- The two decoders agree on a URI, and it stops the launcher in no company. -/
structure Agrees (uri : String) : Prop where
  passes : ∀ path, classify uri = .ok (.file path) → Passes uri path
  returns : Accepted uri → ∀ uris, uri ∈ uris → (∀ other ∈ uris, Accepted other) →
    ∀ exec, (expandExec exec uris).isSome = true

theorem expandExec_isSome {uris : List String} (h : ∀ uri ∈ uris, Accepted uri) (exec : String) :
    (expandExec exec uris).isSome = true := by
  rw [expandExec_eq, Option.isSome_map]
  exact expandTokens_isSome (fun uri hin => uriToPath_accepted (h uri hin)) _

theorem paths_append (near far : List String) :
    paths (near ++ far) = (paths near).bind fun a => (paths far).map (a ++ ·) := by
  unfold paths
  rw [List.mapM_append]
  cases near.mapM uriToPath with
  | none => rfl
  | some a =>
    cases far.mapM uriToPath with
    | none => rfl
    | some b => simp [List.reduceOption_append]

theorem paths_cons {uri : String} {path : Option String} (h : uriToPath uri = some path) (far : List String) :
    paths (uri :: far) = (paths far).map (path.toList ++ ·) := by
  unfold paths
  rw [List.mapM_cons, h]
  cases far.mapM uriToPath with
  | none => rfl
  | some b => cases path <;> simp

/-- The arguments of one word stand between those of the words before and after it. -/
theorem expandExec_word {exec word : String} {before after uris argv args : List String}
    (hsplit : splitExec exec = before ++ word :: after) (hword : expandToken uris word = some (args, true))
    (hargv : expandExec exec uris = some argv) :
    ∃ front back, argv = front.1 ++ args ++ back.1 ∧ expandTokens uris before = some front ∧
      expandTokens uris after = some back := by
  rw [expandExec_eq, hsplit, expandTokens_append, expandTokens_cons, hword] at hargv
  obtain ⟨all, hall, rfl⟩ := Option.map_eq_some_iff.1 hargv
  obtain ⟨front, hfront, hbehind⟩ := Option.bind_eq_some_iff.1 hall
  obtain ⟨rest, hrest, rfl⟩ := Option.map_eq_some_iff.1 hbehind
  rw [Option.bind_some] at hrest
  obtain ⟨back, hback, rfl⟩ := Option.map_eq_some_iff.1 hrest
  refine ⟨front, back, ?_, hfront, hback⟩
  simp

/-- The path is some text's. -/
def IsText (path : Bytes) : Prop := ∃ text : String, bytes text = path

theorem passes_of_decoded {uri text : String} (h : uriToPath uri = some (some text)) : Passes uri (bytes text) where
  single := by
    intro exec before after rest argv hsplit hargv
    have hword : expandToken (uri :: rest) "%f" = some ([text], true) := by
      change (firstPath (uri :: rest)).map _ = _
      rw [firstPath, h]
      rfl
    obtain ⟨front, back, hargv, hfront, hback⟩ := expandExec_word hsplit hword hargv
    exact ⟨text, front, back, rfl, by simpa using hargv, hfront, hback⟩
  many := by
    intro exec before after near far argv hsplit hargv
    have hpaths : (paths (near ++ uri :: far)).isSome = true := by
      by_contra hnone
      rw [Option.not_isSome_iff_eq_none] at hnone
      have hword : expandToken (near ++ uri :: far) "%F" = none := by
        change (paths (near ++ uri :: far)).map _ = _
        rw [hnone]
        rfl
      rw [expandExec_eq, hsplit, expandTokens_append, expandTokens_cons, hword] at hargv
      cases hbefore : expandTokens (near ++ uri :: far) before <;> simp [hbefore] at hargv
    obtain ⟨all, hall⟩ := Option.isSome_iff_exists.1 hpaths
    have hword : expandToken (near ++ uri :: far) "%F" = some (all, true) := by
      change (paths (near ++ uri :: far)).map _ = _
      rw [hall]
      rfl
    rw [paths_append, paths_cons h] at hall
    obtain ⟨a, ha, hbehind⟩ := Option.bind_eq_some_iff.1 hall
    obtain ⟨rest, hrest, rfl⟩ := Option.map_eq_some_iff.1 hbehind
    obtain ⟨b, hb, rfl⟩ := Option.map_eq_some_iff.1 hrest
    obtain ⟨front, back, hargv, hfront, hback⟩ := expandExec_word hsplit hword hargv
    exact ⟨text, front, back, a, b, rfl, by simpa using hargv, ha, hb, hfront, hback⟩

/-- The decoders agree on a URI exactly if a file's is written with the scheme in lower case
and its path is text. -/
theorem decoders_agree_iff (uri : String) :
    Agrees uri ↔ ∀ path, classify uri = .ok (.file path) → "file:".toList <+: uri.toList ∧ IsText path := by
  constructor
  · intro h path hpath
    have hline : splitExec "%f" = [] ++ "%f" :: [] := by decide +kernel
    obtain ⟨argv, hargv⟩ := Option.isSome_iff_exists.1
      (h.returns ⟨_, hpath⟩ [uri] (List.mem_singleton_self _) (fun other hin => ⟨_, List.mem_singleton.1 hin ▸ hpath⟩) "%f")
    obtain ⟨argument, front, back, hargument, hall, hfront, hback⟩ :=
      (h.passes path hpath).single "%f" [] [] [] argv hline hargv
    cases hfront
    cases hback
    refine ⟨?_, argument, hargument⟩
    by_contra hscheme
    have hother : uriToPath uri = some none := uriToPath_other fun hprefix => by
      obtain ⟨rest, hrest⟩ := hprefix
      exact hscheme ⟨"//".toList ++ rest, by rw [← hrest]; rfl⟩
    have hword : expandToken [uri] "%f" = some ([], true) := by
      change (firstPath [uri]).map _ = _
      rw [firstPath, hother]
      rfl
    obtain ⟨front, back, hnothing, hfront, hback⟩ := expandExec_word hline hword hargv
    cases hfront
    cases hback
    rw [hall] at hnothing
    cases hnothing
  · intro h
    refine ⟨fun path hpath => ?_, fun haccepted uris huri hall exec => expandExec_isSome hall exec⟩
    obtain ⟨⟨rest, huri⟩, text, rfl⟩ := h path hpath
    obtain ⟨found, hfound, hdecoded⟩ := accepted_file huri.symm ⟨_, hpath⟩
    rw [hpath] at hfound
    cases hfound
    apply passes_of_decoded
    rw [uriToPath_file hdecoded, Text.fromUTF8?_eq_some.2 rfl]

/-- The file of an upper-case scheme is classified, and the application does not get it. -/
theorem upper_scheme_dropped : classify "FILE:///a" = .ok (.file (bytes "/a")) ∧
    expandExec "%f" ["FILE:///a"] = some [] ∧ ¬ Agrees "FILE:///a" := by
  have hpath : classify "FILE:///a" = .ok (.file (bytes "/a")) := by decide +kernel
  have hnothing : expandExec "%f" ["FILE:///a"] = some [] := by decide +kernel
  refine ⟨hpath, hnothing, fun h => ?_⟩
  obtain ⟨argument, front, back, -, hall, -, -⟩ :=
    (h.passes _ hpath).single "%f" [] [] [] [] (by decide +kernel) hnothing
  cases front
  simp at hall

end AtriumPortal.Portal.OpenUri
