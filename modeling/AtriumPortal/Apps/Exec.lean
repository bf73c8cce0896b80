import AtriumPortal.Apps.Desktop
import AtriumPortal.Lib.Path
/-!
# Exec lines

`apps/exec.rs`: how an `Exec` line is split into words, what its field codes become,
and the command that `launch` runs. `launch_fixed_iff`: exactly when that command does
not depend on the URIs.
-/
open AtriumPortal.Lib.Text AtriumPortal.Prompter
open AtriumPortal.Lib.Path (Bytes bytes)

namespace AtriumPortal.Apps

def maxLaunchUris : Nat := 256

/-! ## Words -/

/-- What a backslash escapes inside quotes. -/
def escapable (c : Char) : Bool := c = '"' || c = '`' || c = '$' || c = '\\'

/-- The words from `token` on, which is one already when `hasToken`. -/
def splitFrom (token : List Char) (quoted hasToken : Bool) : List Char → List (List Char)
  | [] => if hasToken then [token] else []
  | c :: rest =>
    if c = '"' then splitFrom token (!quoted) true rest
    else if c = '\\' then
      match rest with
      | [] => if hasToken then [token] else []
      | next :: after =>
        if !quoted || escapable next then splitFrom (token ++ [next]) quoted true after
        else splitFrom (token ++ ['\\']) quoted true (next :: after)
    else if isWhitespace c && !quoted then
      if hasToken then token :: splitFrom [] quoted false rest else splitFrom token quoted false rest
    else splitFrom (token ++ [c]) quoted true rest

def splitExec (exec : String) : List String := (splitFrom [] false false exec.toList).map String.ofList

/-! ## Paths of URIs -/

def stripText (head text : List Char) : Option (List Char) :=
  if head.isPrefixOf text then some (text.drop head.length) else none

def hexNibble (b : UInt8) : Option UInt8 :=
  if 48 ≤ b ∧ b ≤ 57 then some (b - 48)
  else if 97 ≤ b ∧ b ≤ 102 then some (b - 97 + 10)
  else if 65 ≤ b ∧ b ≤ 70 then some (b - 65 + 10)
  else none

/-- `u8::from_str_radix` on two bytes, which takes a leading `+`. -/
def fromStrRadix (hi lo : UInt8) : Option UInt8 :=
  if hi = 43 then hexNibble lo
  else do
    let h ← hexNibble hi
    let l ← hexNibble lo
    return h * 16 + l

/-- Not inside a character. -/
def charBoundary : Bytes → Bool
  | [] => true
  | b :: _ => !(0x80 ≤ b && b ≤ 0xBF)

/-- The loop of `percent_decode`; `none` is a slice that ends inside a character, which panics. -/
def decodeEscapes : Bytes → Option Bytes
  | [] => some []
  | b :: rest =>
    if b = 37 then
      match rest with
      | hi :: lo :: after =>
        if charBoundary after then
          match fromStrRadix hi lo with
          | some value => (decodeEscapes after).map (value :: ·)
          | none => (decodeEscapes (hi :: lo :: after)).map (b :: ·)
        else none
      | _ => some (b :: rest)
    else (decodeEscapes rest).map (b :: ·)

/-- Bytes that are not UTF-8 have no path. -/
def percentDecode (text : List Char) : Option (Option String) :=
  (decodeEscapes (bytes (String.ofList text))).map fun decoded => String.fromUTF8? ⟨decoded.toArray⟩

/-- The local path of a `file://` URI. The outer `none` is a panic, the inner one another URI. -/
def uriToPath (uri : String) : Option (Option String) :=
  match stripText "file://".toList uri.toList with
  | none => some none
  | some rest =>
    let path := (stripText "localhost".toList rest).getD rest
    if path.head? = some '/' then percentDecode path else some none

def firstPath : List String → Option (Option String)
  | [] => some none
  | uri :: _ => uriToPath uri

def paths (uris : List String) : Option (List String) := (uris.mapM uriToPath).map List.reduceOption

/-! ## Field codes -/

def isUriCode (code : Char) : Bool := code = 'u' || code = 'U' || code = 'f' || code = 'F'

/-- What a code inside a word becomes. Metadata codes and unknown ones are dropped. -/
def codeText (uris : List String) (code : Char) : Option (List Char) :=
  if code = '%' then some ['%']
  else if code = 'u' then some (uris.head?.getD "").toList
  else if code = 'U' then some (" ".intercalate uris).toList
  else if code = 'f' then (firstPath uris).map fun path => (path.getD "").toList
  else if code = 'F' then (paths uris).map fun paths => (" ".intercalate paths).toList
  else some []

/-- The text of a word, and whether a code took the URIs. -/
def expandInline (uris : List String) : List Char → Option (List Char × Bool)
  | [] => some ([], false)
  | c :: rest =>
    if c = '%' then
      match rest with
      | [] => some ([], false)
      | code :: after => do
        let text ← codeText uris code
        let (expanded, used) ← expandInline uris after
        return (text ++ expanded, isUriCode code || used)
    else (expandInline uris rest).map fun (expanded, used) => (c :: expanded, used)

/-- The arguments of a word. -/
def expandToken (uris : List String) (token : String) : Option (List String × Bool) :=
  if token = "%u" then some (uris.head?.toList, true)
  else if token = "%U" then some (uris, true)
  else if token = "%f" then (firstPath uris).map fun path => (path.toList, true)
  else if token = "%F" then (paths uris).map (·, true)
  else (expandInline uris token.toList).map fun (expanded, used) =>
    (if expanded = [] then [] else [String.ofList expanded], used)

def expandTokens (uris : List String) : List String → Option (List String × Bool)
  | [] => some ([], false)
  | token :: tokens => do
    let (args, used) ← expandToken uris token
    let (argv, used') ← expandTokens uris tokens
    return (args ++ argv, used || used')

/-- The argument vector; without a code for them the URIs are appended. -/
def expandExec (exec : String) (uris : List String) : Option (List String) := do
  let (argv, used) ← expandTokens uris (splitExec exec)
  return if used then argv else argv ++ uris

inductive LaunchError where
  | invalidInput (message : String)
  | panicked
  deriving DecidableEq, Repr

/-- The program that is spawned, and its arguments. -/
def launch (exec : String) (uris : List String) : Except LaunchError (String × List String) :=
  if maxExecBytes < exec.utf8ByteSize ∨ maxLaunchUris < uris.length then
    .error (.invalidInput "Exec line or URI list is oversized")
  else
    match expandExec exec uris with
    | none => .error .panicked
    | some [] => .error (.invalidInput "the Exec line expanded to nothing")
    | some (program :: args) => .ok (program, args)

/-! ## What a word is without the URIs -/

/-- The codes of a word, `%%` among them. -/
def fieldCodes : List Char → List Char
  | [] => []
  | c :: rest =>
    if c = '%' then
      match rest with
      | [] => []
      | code :: after => code :: fieldCodes after
    else fieldCodes rest

/-- The text of a word outside its codes. -/
def plainText : List Char → List Char
  | [] => []
  | c :: rest =>
    if c = '%' then
      match rest with
      | [] => []
      | code :: after => if code = '%' then '%' :: plainText after else plainText after
    else c :: plainText rest

def takesUris (token : String) : Bool := (fieldCodes token.toList).any isUriCode

/-- The word can become an argument. -/
def contributes (token : String) : Bool := takesUris token || plainText token.toList ≠ []

/-- The first word that can become an argument takes no URI. -/
def NamesProgram (exec : String) : Prop := ((splitExec exec).find? contributes).any (!takesUris ·) = true

instance (exec : String) : Decidable (NamesProgram exec) := inferInstanceAs (Decidable (_ = true))

/-- The command does not depend on the URIs: two commands of one line run one program, which
the line names without any URI, and a line that names none is refused. -/
structure ProgramFixed (exec : String) : Prop where
  same : ∀ uris uris' program program' args args', launch exec uris = .ok (program, args) →
    launch exec uris' = .ok (program', args') → program = program'
  own : ∀ uris program args, launch exec uris = .ok (program, args) → ∃ args', launch exec [] = .ok (program, args')
  refused : expandExec exec [] = some [] → ∀ uris, ∃ error, launch exec uris = .error error

theorem expandInline_cons {c : Char} (h : c ≠ '%') (uris : List String) (rest : List Char) :
    expandInline uris (c :: rest) = (expandInline uris rest).map fun (expanded, used) => (c :: expanded, used) := by
  rw [expandInline.eq_def]
  exact if_neg h

theorem fieldCodes_cons {c : Char} (h : c ≠ '%') (rest : List Char) : fieldCodes (c :: rest) = fieldCodes rest := by
  rw [fieldCodes.eq_def]
  exact if_neg h

theorem plainText_cons {c : Char} (h : c ≠ '%') (rest : List Char) : plainText (c :: rest) = c :: plainText rest := by
  rw [plainText.eq_def]
  exact if_neg h

theorem codeText_plain {code : Char} (h : isUriCode code = false) (uris : List String) :
    codeText uris code = some (if code = '%' then ['%'] else []) := by
  simp only [isUriCode, Bool.or_eq_false_iff, decide_eq_false_iff_not] at h
  obtain ⟨⟨⟨hu, hU⟩, hf⟩, hF⟩ := h
  simp only [codeText, hu, hU, hf, hF, if_false]
  split <;> rfl

/-- A word without a URI code is the same for all URIs. -/
theorem expandInline_plain {text : List Char} (h : (fieldCodes text).any isUriCode = false) (uris : List String) :
    expandInline uris text = some (plainText text, false) := by
  fun_induction plainText text with
  | case1 => rfl
  | case2 => simp [expandInline]
  | case3 after ih =>
    simp only [fieldCodes, if_true, List.any_cons, Bool.or_eq_false_iff] at h
    simp [expandInline, codeText_plain h.1, h.1, ih h.2]
  | case4 code after hcode ih =>
    simp only [fieldCodes, if_true, List.any_cons, Bool.or_eq_false_iff] at h
    simp [expandInline, codeText_plain h.1, h.1, ih h.2, hcode]
  | case5 c rest hc ih =>
    rw [fieldCodes_cons hc] at h
    rw [expandInline_cons hc, ih h, Option.map_some]

theorem expandToken_inline {token : String} (h : token ≠ "%u" ∧ token ≠ "%U" ∧ token ≠ "%f" ∧ token ≠ "%F")
    (uris : List String) : expandToken uris token = (expandInline uris token.toList).map fun (expanded, used) =>
      (if expanded = [] then [] else [String.ofList expanded], used) := by
  simp [expandToken, h]

theorem expandToken_plain {token : String} (h : takesUris token = false) (uris : List String) :
    expandToken uris token =
      some (if plainText token.toList = [] then [] else [String.ofList (plainText token.toList)], false) := by
  have hne : token ≠ "%u" ∧ token ≠ "%U" ∧ token ≠ "%f" ∧ token ≠ "%F" := by
    refine ⟨?_, ?_, ?_, ?_⟩ <;> (rintro rfl; revert h; decide)
  rw [expandToken_inline hne, expandInline_plain h, Option.map_some]

theorem expandTokens_cons (uris : List String) (token : String) (tokens : List String) :
    expandTokens uris (token :: tokens) = (expandToken uris token).bind fun x =>
      (expandTokens uris tokens).map fun y => (x.1 ++ y.1, x.2 || y.2) := by
  cases h : expandToken uris token <;> cases h' : expandTokens uris tokens <;> simp [expandTokens, h, h']

/-- Words that become nothing are skipped. -/
theorem expandTokens_skip {pre : List String} (h : ∀ token ∈ pre, contributes token = false) (uris post : List String) :
    expandTokens uris (pre ++ post) = expandTokens uris post := by
  induction pre with
  | nil => rfl
  | cons token pre ih =>
    have htoken := h token List.mem_cons_self
    simp only [contributes, Bool.or_eq_false_iff, decide_eq_false_iff_not, not_not] at htoken
    rw [List.cons_append, expandTokens_cons, expandToken_plain htoken.1, ih fun t ht => h t (List.mem_cons_of_mem _ ht)]
    simp [htoken.2]

/-- Only a path that cannot be decoded stops the expansion. -/
theorem expandTokens_isSome {uris : List String} (h : ∀ uri ∈ uris, (uriToPath uri).isSome = true) (tokens : List String) :
    (expandTokens uris tokens).isSome = true := by
  have hpaths : (paths uris).isSome = true := by
    rw [paths, Option.isSome_map]
    induction uris with
    | nil => rfl
    | cons uri uris ih =>
      obtain ⟨path, hpath⟩ := Option.isSome_iff_exists.1 (h uri (List.mem_cons_self ..))
      obtain ⟨rest, hrest⟩ := Option.isSome_iff_exists.1 (ih fun uri hin => h uri (List.mem_cons_of_mem _ hin))
      simp [hpath, hrest]
  have hfirst : (firstPath uris).isSome = true := by
    cases uris with
    | nil => rfl
    | cons uri uris => exact h uri (List.mem_cons_self ..)
  have hcode : ∀ code, (codeText uris code).isSome = true := by
    intro code
    unfold codeText
    repeat' split
    all_goals first | rfl | (rw [Option.isSome_map]; assumption)
  have hinline : ∀ text, (expandInline uris text).isSome = true := by
    intro text
    fun_induction expandInline uris text with
    | case1 => rfl
    | case2 => rfl
    | case3 code after ih =>
      obtain ⟨text, htext⟩ := Option.isSome_iff_exists.1 (hcode code)
      obtain ⟨rest, hrest⟩ := Option.isSome_iff_exists.1 ih
      simp [htext, hrest]
    | case4 c rest hc ih => rwa [Option.isSome_map]
  induction tokens with
  | nil => rfl
  | cons token tokens ih =>
    have htoken : (expandToken uris token).isSome = true := by
      unfold expandToken
      repeat' split
      all_goals first | rfl | (rw [Option.isSome_map]; first | assumption | exact hinline _)
    obtain ⟨x, hx⟩ := Option.isSome_iff_exists.1 htoken
    rw [expandTokens_cons, hx, Option.bind_some, Option.isSome_map]
    exact ih

theorem expandTokens_append (uris before after : List String) :
    expandTokens uris (before ++ after) = (expandTokens uris before).bind fun x =>
      (expandTokens uris after).map fun y => (x.1 ++ y.1, x.2 || y.2) := by
  induction before with
  | nil => cases h : expandTokens uris after <;> simp [expandTokens, h]
  | cons token before ih =>
    rw [List.cons_append, expandTokens_cons, ih, expandTokens_cons]
    cases expandToken uris token with
    | none => rfl
    | some x =>
      cases expandTokens uris before with
      | none => rfl
      | some y =>
        cases expandTokens uris after with
        | none => rfl
        | some z => simp [List.append_assoc, Bool.or_assoc]

/-! ## Two lists of URIs apart -/

/-- Two files that are told apart wherever a code takes them. -/
def fileA : List String := ["file:///a"]
def fileB : List String := ["file:///b"]

/-- Two texts for one code, or for a word. -/
structure Apart (x y : List Char) (taken : Bool) : Prop where
  length : x.length = y.length
  ne : taken = true → x ≠ y
  eq : taken = false → x = y

theorem Apart.append {x y x' y' : List Char} {taken taken' : Bool} (h : Apart x y taken) (h' : Apart x' y' taken') :
    Apart (x ++ x') (y ++ y') (taken || taken') := by
  refine ⟨by simp [h.length, h'.length], fun ht heq => ?_, fun ht => ?_⟩
  · obtain ⟨hx, hx'⟩ := List.append_inj heq h.length
    rcases Bool.or_eq_true_iff.1 ht with ht | ht
    · exact h.ne ht hx
    · exact h'.ne ht hx'
  · obtain ⟨ht, ht'⟩ := Bool.or_eq_false_iff.1 ht
    rw [h.eq ht, h'.eq ht']

theorem codeText_apart (code : Char) :
    ∃ x y, codeText fileA code = some x ∧ codeText fileB code = some y ∧ Apart x y (isUriCode code) := by
  by_cases hcode : isUriCode code = true
  · simp only [isUriCode, Bool.or_eq_true, decide_eq_true_eq] at hcode
    have huri : Apart "file:///a".toList "file:///b".toList true := ⟨by decide, by decide, nofun⟩
    have hpath : Apart "/a".toList "/b".toList true := ⟨by decide, by decide, nofun⟩
    rcases hcode with ((rfl | rfl) | rfl) | rfl
    · exact ⟨_, _, by decide +kernel, by decide +kernel, huri⟩
    · exact ⟨_, _, by decide +kernel, by decide +kernel, huri⟩
    · exact ⟨_, _, by decide +kernel, by decide +kernel, hpath⟩
    · exact ⟨_, _, by decide +kernel, by decide +kernel, hpath⟩
  · rw [Bool.not_eq_true] at hcode
    exact ⟨_, _, codeText_plain hcode fileA, codeText_plain hcode fileB, rfl, by simp [hcode], fun _ => rfl⟩

theorem expandInline_apart (text : List Char) : ∃ x y, expandInline fileA text = some (x, (fieldCodes text).any isUriCode) ∧
    expandInline fileB text = some (y, (fieldCodes text).any isUriCode) ∧ Apart x y ((fieldCodes text).any isUriCode) := by
  have hnil : Apart [] [] false := ⟨rfl, nofun, fun _ => rfl⟩
  fun_induction fieldCodes text with
  | case1 => exact ⟨[], [], rfl, rfl, hnil⟩
  | case2 => exact ⟨[], [], rfl, rfl, hnil⟩
  | case3 code after ih =>
    obtain ⟨x, y, hx, hy, h⟩ := ih
    obtain ⟨x₀, y₀, hx₀, hy₀, h₀⟩ := codeText_apart code
    refine ⟨x₀ ++ x, y₀ ++ y, ?_, ?_, h₀.append h⟩
    · simp [expandInline, hx, hx₀]
    · simp [expandInline, hy, hy₀]
  | case4 c rest hc ih =>
    obtain ⟨x, y, hx, hy, h⟩ := ih
    refine ⟨c :: x, c :: y, ?_, ?_, ?_⟩
    · rw [expandInline_cons hc, hx, Option.map_some]
    · rw [expandInline_cons hc, hy, Option.map_some]
    · have hc : Apart [c] [c] false := ⟨rfl, nofun, fun _ => rfl⟩
      exact hc.append h

/-- A word that takes URIs becomes one argument, a different one for each file. -/
theorem expandToken_apart {token : String} (h : takesUris token = true) :
    ∃ p q, p ≠ q ∧ expandToken fileA token = some ([p], true) ∧ expandToken fileB token = some ([q], true) := by
  by_cases hne : token ≠ "%u" ∧ token ≠ "%U" ∧ token ≠ "%f" ∧ token ≠ "%F"
  · obtain ⟨x, y, hx, hy, hapart⟩ := expandInline_apart token.toList
    rw [takesUris] at h
    rw [h] at hx hy hapart
    have hxy := hapart.ne rfl
    have hx₀ : x ≠ [] := by
      rintro rfl
      exact hxy (List.length_eq_zero_iff.1 hapart.length.symm).symm
    have hy₀ : y ≠ [] := by
      rintro rfl
      exact hxy (List.length_eq_zero_iff.1 hapart.length)
    refine ⟨String.ofList x, String.ofList y, fun heq => hxy ?_, ?_, ?_⟩
    · simpa using congrArg String.toList heq
    · simp [expandToken_inline hne, hx, hx₀]
    · simp [expandToken_inline hne, hy, hy₀]
  · have hcase : token = "%u" ∨ token = "%U" ∨ token = "%f" ∨ token = "%F" := by
      by_contra hno
      exact hne (by simpa [not_or] using hno)
    rcases hcase with rfl | rfl | rfl | rfl
    · exact ⟨"file:///a", "file:///b", by decide, rfl, rfl⟩
    · exact ⟨"file:///a", "file:///b", by decide, rfl, rfl⟩
    · exact ⟨"/a", "/b", by decide, by decide +kernel, by decide +kernel⟩
    · exact ⟨"/a", "/b", by decide, by decide +kernel, by decide +kernel⟩

theorem expandTokens_files (tokens : List String) :
    (expandTokens fileA tokens).isSome = true ∧ (expandTokens fileB tokens).isSome = true := by
  induction tokens with
  | nil => exact ⟨rfl, rfl⟩
  | cons token tokens ih =>
    rw [expandTokens_cons, expandTokens_cons]
    cases htoken : takesUris token with
    | true =>
      obtain ⟨p, q, -, hp, hq⟩ := expandToken_apart htoken
      rw [hp, hq, Option.bind_some, Option.bind_some, Option.isSome_map, Option.isSome_map]
      exact ih
    | false =>
      rw [expandToken_plain htoken, expandToken_plain htoken, Option.bind_some, Option.bind_some, Option.isSome_map,
        Option.isSome_map]
      exact ih

/-! ## The program of a line -/

theorem expandExec_eq (exec : String) (uris : List String) : expandExec exec uris =
    (expandTokens uris (splitExec exec)).map fun x => if x.2 then x.1 else x.1 ++ uris := by
  cases h : expandTokens uris (splitExec exec) <;> simp [expandExec, h]

theorem launch_eq_ok {exec : String} {uris : List String} {program : String} {args : List String}
    (hsize : exec.utf8ByteSize ≤ maxExecBytes) (hcount : uris.length ≤ maxLaunchUris) :
    launch exec uris = .ok (program, args) ↔ expandExec exec uris = some (program :: args) := by
  rw [launch, if_neg (by omega)]
  split <;> simp_all

theorem launch_bounds {exec : String} {uris : List String} {command : String × List String}
    (h : launch exec uris = .ok command) : exec.utf8ByteSize ≤ maxExecBytes ∧ uris.length ≤ maxLaunchUris := by
  unfold launch at h
  split at h
  · cases h
  · omega

/-- The word that names the program, and the words before it, which become nothing. -/
theorem find_contributes {tokens : List String} {token : String} (h : tokens.find? contributes = some token) :
    ∃ pre post, tokens = pre ++ token :: post ∧ contributes token = true ∧ ∀ t ∈ pre, contributes t = false := by
  obtain ⟨hc, pre, post, heq, hpre⟩ := List.find?_eq_some_iff_append.1 h
  exact ⟨pre, post, heq, hc, fun t ht => by simpa using hpre t ht⟩

/-- The program of a line that names it is the text of one of its words. -/
theorem NamesProgram.program {exec : String} (h : NamesProgram exec) : ∃ program, ∀ uris argv,
    expandExec exec uris = some argv → ∃ args, argv = program :: args := by
  unfold NamesProgram at h
  cases hfind : (splitExec exec).find? contributes with
  | none => simp [hfind] at h
  | some token =>
    rw [hfind, Option.any_some, Bool.not_eq_true'] at h
    obtain ⟨pre, post, heq, hc, hpre⟩ := find_contributes hfind
    have hplain : plainText token.toList ≠ [] := by simpa [contributes, h] using hc
    refine ⟨String.ofList (plainText token.toList), fun uris argv hargv => ?_⟩
    rw [expandExec_eq, heq, expandTokens_skip hpre, expandTokens_cons, expandToken_plain h, Option.bind_some] at hargv
    obtain ⟨x, hx, rfl⟩ := Option.map_eq_some_iff.1 hargv
    obtain ⟨y, -, rfl⟩ := Option.map_eq_some_iff.1 hx
    simp only [hplain, if_false]
    split <;> exact ⟨_, rfl⟩

/-- A line of which no word can become an argument runs the URI itself. -/
theorem launch_bare {exec : String} (hsize : exec.utf8ByteSize ≤ maxExecBytes)
    (h : ∀ token ∈ splitExec exec, contributes token = false) :
    expandExec exec [] = some [] ∧ launch exec fileA = .ok ("file:///a", []) := by
  have hnone : ∀ uris, expandTokens uris (splitExec exec) = some ([], false) := fun uris => by
    have hall := expandTokens_skip h uris []
    rw [List.append_nil] at hall
    exact hall
  refine ⟨by simp [expandExec_eq, hnone], (launch_eq_ok hsize (by decide)).2 ?_⟩
  simp [expandExec_eq, hnone, fileA]

/-- Where the first word takes URIs two of them run two programs. -/
theorem launch_apart {exec token : String} (hsize : exec.utf8ByteSize ≤ maxExecBytes)
    (hfind : (splitExec exec).find? contributes = some token) (htakes : takesUris token = true) :
    ∃ p q args args', p ≠ q ∧ launch exec fileA = .ok (p, args) ∧ launch exec fileB = .ok (q, args') := by
  obtain ⟨pre, post, heq, -, hpre⟩ := find_contributes hfind
  -- the words behind the first one have an expansion, whatever it is
  obtain ⟨p, q, hpq, hp, hq⟩ := expandToken_apart htakes
  obtain ⟨x, hx⟩ := Option.isSome_iff_exists.1 (expandTokens_files post).1
  obtain ⟨y, hy⟩ := Option.isSome_iff_exists.1 (expandTokens_files post).2
  refine ⟨p, q, x.1, y.1, hpq, (launch_eq_ok hsize (by decide)).2 ?_, (launch_eq_ok hsize (by decide)).2 ?_⟩
  · rw [expandExec_eq, heq, expandTokens_skip hpre, expandTokens_cons, hp, Option.bind_some, hx]
    simp
  · rw [expandExec_eq, heq, expandTokens_skip hpre, expandTokens_cons, hq, Option.bind_some, hy]
    simp

theorem ProgramFixed.namesProgram {exec : String} (h : ProgramFixed exec) (hsize : exec.utf8ByteSize ≤ maxExecBytes) :
    NamesProgram exec := by
  unfold NamesProgram
  cases hfind : (splitExec exec).find? contributes with
  | none =>
    exfalso
    obtain ⟨hnone, hrun⟩ := launch_bare hsize (by simpa using hfind)
    obtain ⟨error, herror⟩ := h.refused hnone fileA
    rw [hrun] at herror
    cases herror
  | some token =>
    rw [Option.any_some, Bool.not_eq_true']
    by_contra htakes
    rw [Bool.not_eq_false] at htakes
    obtain ⟨p, q, args, args', hpq, hrunA, hrunB⟩ := launch_apart hsize hfind htakes
    exact hpq (h.same _ _ _ _ _ _ hrunA hrunB)

/-- An oversized line is refused. -/
theorem programFixed_oversized {exec : String} (hsize : maxExecBytes < exec.utf8ByteSize) : ProgramFixed exec := by
  have hno : ∀ uris command, launch exec uris ≠ .ok command := fun uris command hrun =>
    absurd (launch_bounds hrun).1 (Nat.not_le.2 hsize)
  refine ⟨fun uris _ _ _ _ _ hrun => absurd hrun (hno uris _), fun uris _ _ hrun => absurd hrun (hno uris _),
    fun _ uris => ?_⟩
  cases hrun : launch exec uris with
  | error error => exact ⟨error, rfl⟩
  | ok command => exact absurd hrun (hno uris command)

theorem NamesProgram.programFixed {exec : String} (h : NamesProgram exec) : ProgramFixed exec := by
  obtain ⟨program, hprogram⟩ := h.program
  have hruns : ∀ uris program' args, launch exec uris = .ok (program', args) → program' = program := by
    intro uris program' args hrun
    obtain ⟨hsize, hcount⟩ := launch_bounds hrun
    obtain ⟨args', heq⟩ := hprogram uris _ ((launch_eq_ok hsize hcount).1 hrun)
    exact (List.cons.inj heq).1
  have halone : ∃ args, expandExec exec [] = some (program :: args) := by
    obtain ⟨x, hx⟩ := Option.isSome_iff_exists.1 (@expandTokens_isSome [] nofun (splitExec exec))
    have hargv : expandExec exec [] = some x.1 := by simp [expandExec_eq, hx]
    obtain ⟨args, heq⟩ := hprogram [] x.1 hargv
    exact ⟨args, heq ▸ hargv⟩
  obtain ⟨args', hargs'⟩ := halone
  refine ⟨fun uris uris' program₁ program₂ _ _ h₁ h₂ => ?_, fun uris program' args hrun => ?_, fun hnone => ?_⟩
  · rw [hruns _ _ _ h₁, hruns _ _ _ h₂]
  · rw [hruns _ _ _ hrun]
    exact ⟨args', (launch_eq_ok (launch_bounds hrun).1 (Nat.zero_le _)).2 hargs'⟩
  · rw [hargs'] at hnone
    cases hnone

/-- The program does not depend on the URIs exactly when the line is refused for its size, or
its first word that can become an argument takes none of them. -/
theorem launch_fixed_iff (exec : String) : ProgramFixed exec ↔ maxExecBytes < exec.utf8ByteSize ∨ NamesProgram exec := by
  constructor
  · intro h
    by_cases hsize : maxExecBytes < exec.utf8ByteSize
    · exact .inl hsize
    · exact .inr (h.namesProgram (Nat.not_lt.1 hsize))
  · rintro (hsize | hnames)
    · exact programFixed_oversized hsize
    · exact hnames.programFixed

/-- A line without a program runs the URI, and so does one whose first word is its code. -/
theorem launch_runs_uri : launch "" ["file:///tmp/x"] = .ok ("file:///tmp/x", []) ∧
    launch "%f" ["file:///tmp/x"] = .ok ("/tmp/x", []) ∧ ¬ ProgramFixed "" ∧ ¬ ProgramFixed "%f" := by
  have hempty : launch "" ["file:///tmp/x"] = .ok ("file:///tmp/x", []) := by decide +kernel
  have hcode : launch "%f" ["file:///tmp/x"] = .ok ("/tmp/x", []) := by decide +kernel
  refine ⟨hempty, hcode, fun h => ?_, fun h => ?_⟩
  · obtain ⟨error, herror⟩ := h.refused (by decide +kernel) ["file:///tmp/x"]
    rw [hempty] at herror
    cases herror
  · obtain ⟨error, herror⟩ := h.refused (by decide +kernel) ["file:///tmp/x"]
    rw [hcode] at herror
    cases herror

end AtriumPortal.Apps
