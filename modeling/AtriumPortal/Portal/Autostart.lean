import AtriumPortal.Apps.Exec
import AtriumPortal.Portal.Background
/-!
# Autostart entries

`background.rs`: how a command line is quoted for an `Exec` line, and the desktop entry
that is written for it. `expandExec_execLine`: quoting is undone by reading.
`entry_intact_iff`: exactly which entries are read back as they were meant.
-/
open AtriumPortal.Apps AtriumPortal.Lib.Text AtriumPortal.Prompter
open AtriumPortal.Lib.Path (bytes)

namespace AtriumPortal.Portal.Background

/-- Characters that need no quotes. -/
def safeExecChar (c : Char) : Bool := c.isAlphanum || c ∈ ['-', '_', '.', '/', ':', '@', '%', '=', ',', '~', '+']

def escaped (text : List Char) : List Char := text.flatMap fun c => if escapable c then ['\\', c] else [c]

def doubled (text : List Char) : List Char := text.flatMap fun c => if c = '%' then ['%', '%'] else [c]

def quoted (arg : List Char) : List Char :=
  if arg ≠ [] ∧ arg.all safeExecChar then arg else '"' :: escaped arg ++ ['"']

/-- One argument of the `Exec` line; percent signs are doubled, so that none is a field code. -/
def quoteExecArg (arg : String) : String := String.ofList (doubled (quoted arg.toList))

def execLine (commandline : List String) : String := " ".intercalate (commandline.map quoteExecArg)

/-- The autostart entry's content. -/
def renderDesktopEntry (appId : String) (spec : AutostartSpec) : String :=
  s!"[Desktop Entry]\nType=Application\nName={appId}\nExec={execLine spec.commandline}\n" ++
    (if spec.dbusActivatable then "DBusActivatable=true\n" else "") ++ "X-Tessera-Portal=background\n"

/-! ## Quoting is undone by reading -/

theorem doubled_cons (c : Char) (text : List Char) : doubled (c :: text) = doubled [c] ++ doubled text := by
  simp [doubled]

theorem splitFrom_quote (token : List Char) (inQuotes hasToken : Bool) (rest : List Char) :
    splitFrom token inQuotes hasToken ('"' :: rest) = splitFrom token (!inQuotes) true rest := by
  rw [splitFrom.eq_def]
  rfl

theorem splitFrom_space (token rest : List Char) :
    splitFrom token false true (' ' :: rest) = token :: splitFrom [] false false rest := by
  rw [splitFrom.eq_def]
  rfl

/-- Text without what the tokeniser looks at is taken over. -/
theorem splitFrom_plain {token text rest : List Char} {inQuotes hasToken : Bool}
    (h : ∀ c ∈ text, c ≠ '"' ∧ c ≠ '\\' ∧ (inQuotes = false → isWhitespace c = false)) (hne : text ≠ []) :
    splitFrom token inQuotes hasToken (text ++ rest) = splitFrom (token ++ text) inQuotes true rest := by
  induction text generalizing token hasToken with
  | nil => exact absurd rfl hne
  | cons c text ih =>
    obtain ⟨⟨hquote, hback, hspace⟩, htext⟩ := List.forall_mem_cons.1 h
    have hword : (isWhitespace c && !inQuotes) = false := by
      cases inQuotes with
      | true => rw [Bool.not_true, Bool.and_false]
      | false => rw [hspace rfl, Bool.false_and]
    have hstep : splitFrom token inQuotes hasToken (c :: (text ++ rest)) =
        splitFrom (token ++ [c]) inQuotes true (text ++ rest) := by
      rw [splitFrom.eq_def]
      simp [hquote, hback, hword]
    rw [List.cons_append, hstep]
    by_cases hnil : text = []
    · rw [hnil, List.nil_append]
    · rw [ih htext hnil, List.append_assoc, List.singleton_append]

theorem doubled_escapable {c : Char} (h : escapable c = true) : doubled [c] = [c] := by
  have hc : c ≠ '%' := by
    rintro rfl
    cases h
  simp [doubled, hc]

theorem splitFrom_escaped (token : List Char) (hasToken : Bool) (text rest : List Char) :
    splitFrom token true hasToken (doubled (escaped text) ++ '"' :: rest) =
      splitFrom (token ++ doubled text) false true rest := by
  induction text generalizing token hasToken with
  | nil =>
    rw [show doubled (escaped []) = [] from rfl, List.nil_append, splitFrom_quote, show doubled [] = [] from rfl,
      List.append_nil, Bool.not_true]
  | cons c text ih =>
    by_cases hc : escapable c = true
    · have hstep : doubled (escaped (c :: text)) = '\\' :: c :: doubled (escaped text) := by
        have := doubled_escapable hc
        simp_all [escaped, doubled]
      rw [hstep, doubled_cons, doubled_escapable hc, ← List.append_assoc, ← ih (token ++ [c]) true]
      simp [splitFrom, hc]
    · have hplain : ∀ d ∈ doubled [c], d ≠ '"' ∧ d ≠ '\\' ∧ (true = false → isWhitespace d = false) := by
        intro d hd
        have hdc : d = c := by
          unfold doubled at hd
          by_cases hp : c = '%' <;> simp_all
        simp only [escapable, Bool.or_eq_true, decide_eq_true_eq, not_or] at hc
        rw [hdc]
        exact ⟨hc.1.1.1, hc.2, nofun⟩
      have hstep : doubled (escaped (c :: text)) = doubled [c] ++ doubled (escaped text) := by
        simp [escaped, doubled, hc]
      have hne : doubled [c] ≠ [] := by
        unfold doubled
        by_cases hp : c = '%' <;> simp [hp]
      rw [hstep, List.append_assoc, splitFrom_plain hplain hne, ih, doubled_cons c text, List.append_assoc]

theorem safe_ascii {c : Char} (h : safeExecChar c = true) : 37 ≤ c.toNat ∧ c.toNat < 127 := by
  have hval : c.val.toNat = c.toNat := rfl
  unfold safeExecChar Char.isAlphanum Char.isAlpha Char.isUpper Char.isLower Char.isDigit at h
  simp only [Bool.or_eq_true, Bool.and_eq_true, decide_eq_true_eq, ge_iff_le, UInt32.le_iff_toNat_le, hval] at h
  rcases h with ((h | h) | h) | h
  · simp at h
    omega
  · simp at h
    omega
  · simp at h
    omega
  · have hall : ['-', '_', '.', '/', ':', '@', '%', '=', ',', '~', '+'].all (fun d => 37 ≤ d.toNat ∧ d.toNat < 127) = true := by
      decide
    exact of_decide_eq_true (List.all_eq_true.1 hall c h)

/-- The tokeniser takes safe characters over. -/
theorem safe_plain {c : Char} (h : safeExecChar c = true) : c ≠ '"' ∧ c ≠ '\\' ∧ isWhitespace c = false := by
  refine ⟨?_, ?_, ?_⟩
  · rintro rfl
    cases h
  · rintro rfl
    cases h
  · obtain ⟨hmin, hmax⟩ := safe_ascii h
    rw [Bool.eq_false_iff]
    intro hspace
    simp [isWhitespace] at hspace
    omega

theorem mem_doubled {c : Char} {text : List Char} : c ∈ doubled text ↔ c ∈ text := by
  induction text with
  | nil => rfl
  | cons d text ih =>
    have hd : c ∈ doubled [d] ↔ c = d := by
      unfold doubled
      by_cases hp : d = '%' <;> simp [hp]
    rw [doubled_cons, List.mem_append, ih, hd, List.mem_cons]

/-- The tokeniser reads a quoted argument as one word, with its percent signs doubled. -/
theorem splitFrom_quoted (arg rest : List Char) :
    splitFrom [] false false (doubled (quoted arg) ++ rest) = splitFrom (doubled arg) false true rest := by
  unfold quoted
  split
  · next hsafe =>
    have hplain : ∀ c ∈ doubled arg, c ≠ '"' ∧ c ≠ '\\' ∧ (false = false → isWhitespace c = false) := by
      intro c hc
      obtain ⟨hquote, hback, hspace⟩ := safe_plain (List.all_eq_true.1 hsafe.2 c (mem_doubled.1 hc))
      exact ⟨hquote, hback, fun _ => hspace⟩
    have hne : doubled arg ≠ [] := by
      obtain ⟨c, hc⟩ := List.exists_mem_of_ne_nil arg hsafe.1
      exact List.ne_nil_of_mem (mem_doubled.2 hc)
    rw [splitFrom_plain hplain hne, List.nil_append]
  · have hopen : doubled ('"' :: escaped arg ++ ['"']) ++ rest = '"' :: (doubled (escaped arg) ++ '"' :: rest) := by
      simp [doubled]
    rw [hopen, splitFrom_quote, Bool.not_false, splitFrom_escaped, List.nil_append]

theorem execLine_cons (arg next : String) (rest : List String) : (execLine (arg :: next :: rest)).toList =
    doubled (quoted arg.toList) ++ ' ' :: (execLine (next :: rest)).toList := by
  simp [execLine, quoteExecArg, String.intercalate_cons_cons]

/-- The words of a quoted command line. -/
theorem splitExec_execLine (commandline : List String) :
    splitExec (execLine commandline) = commandline.map fun arg => String.ofList (doubled arg.toList) := by
  have hwords : splitFrom [] false false (execLine commandline).toList =
      commandline.map fun arg => doubled arg.toList := by
    induction commandline with
    | nil => rfl
    | cons arg rest ih =>
      cases rest with
      | nil =>
        have hlast := splitFrom_quoted arg.toList []
        rw [List.append_nil, splitFrom] at hlast
        simpa [execLine, quoteExecArg] using hlast
      | cons next rest =>
        rw [execLine_cons, splitFrom_quoted, splitFrom_space, ih]
        rfl
  rw [splitExec, hwords, List.map_map]
  rfl

/-- A word with doubled percent signs has no field codes but `%%`. -/
theorem doubled_reads (text : List Char) :
    plainText (doubled text) = text ∧ (fieldCodes (doubled text)).any isUriCode = false := by
  induction text with
  | nil => exact ⟨rfl, rfl⟩
  | cons c text ih =>
    rw [doubled_cons]
    by_cases hc : c = '%'
    · subst hc
      simpa [doubled, plainText, fieldCodes, isUriCode] using ih
    · have hone : doubled [c] = [c] := by simp [doubled, hc]
      rw [hone, List.singleton_append, plainText_cons hc, fieldCodes_cons hc, ih.1]
      exact ⟨rfl, ih.2⟩

theorem expandToken_doubled (arg : String) :
    expandToken [] (String.ofList (doubled arg.toList)) = some (if arg = "" then [] else [arg], false) := by
  obtain ⟨htext, hcodes⟩ := doubled_reads arg.toList
  rw [expandToken_plain (by rwa [takesUris, String.toList_ofList]), String.toList_ofList, htext, String.ofList_toList]
  simp only [String.toList_eq_nil_iff]

/-- Reading the `Exec` line of a command line gives its non-empty arguments back. -/
theorem expandExec_execLine (commandline : List String) :
    expandExec (execLine commandline) [] = some (commandline.filter (· ≠ "")) := by
  have hall : expandTokens [] (commandline.map fun arg => String.ofList (doubled arg.toList)) =
      some (commandline.filter (· ≠ ""), false) := by
    induction commandline with
    | nil => rfl
    | cons arg rest ih =>
      rw [List.map_cons, expandTokens_cons, expandToken_doubled, Option.bind_some, ih]
      by_cases harg : arg = "" <;> simp [harg]
  rw [expandExec_eq, splitExec_execLine, hall]
  simp

/-- Quoting is undone by reading: non-empty arguments come back exactly. -/
theorem quoted_read_back {args : List String} (h : ∀ arg ∈ args, arg ≠ "" ∧ hasNul arg = false) :
    expandExec (" ".intercalate (args.map quoteExecArg)) [] = some args := by
  have hread := expandExec_execLine args
  rw [List.filter_eq_self.2 fun arg harg => by simpa using (h arg harg).1] at hread
  exact hread

theorem quoted_read_back_percent : expandExec (" ".intercalate (["say \"100%\"", "$HOME\\`%u"].map quoteExecArg)) [] =
    some ["say \"100%\"", "$HOME\\`%u"] := quoted_read_back (by decide)

/-! ## The size and the characters of an `Exec` line -/

theorem quoteExecArg_toList (arg : String) : (quoteExecArg arg).toList = doubled (quoted arg.toList) :=
  String.toList_ofList

/-- The bytes an argument takes in an `Exec` line. -/
def quotedSize (arg : String) : Nat :=
  arg.utf8ByteSize + arg.toList.count '%' +
    if arg.toList.all safeExecChar then 0 else 2 + arg.toList.countP escapable

def execSize (commandline : List String) : Nat := (commandline.map quotedSize).sum + (commandline.length - 1)

theorem size_doubled (text : List Char) : size (doubled text) = size text + text.count '%' := by
  have hone : Char.utf8Size '%' = 1 := by decide
  induction text with
  | nil => rfl
  | cons c text ih =>
    rw [doubled_cons, size_append, ih, size_cons]
    by_cases hc : c = '%'
    · subst hc
      simp only [doubled, List.flatMap_cons, List.flatMap_nil, if_true, List.append_nil, size_cons, size_nil, hone,
        List.count_cons_self]
      omega
    · rw [List.count_cons_of_ne hc]
      simp only [doubled, List.flatMap_cons, List.flatMap_nil, hc, if_false, List.append_nil, size_cons, size_nil]
      omega

theorem escaped_cons (c : Char) (text : List Char) : escaped (c :: text) = escaped [c] ++ escaped text := by
  simp [escaped]

theorem size_escaped (text : List Char) : size (escaped text) = size text + text.countP escapable := by
  have hone : Char.utf8Size '\\' = 1 := by decide
  induction text with
  | nil => rfl
  | cons c text ih =>
    rw [escaped_cons, size_append, ih, size_cons, List.countP_cons]
    by_cases hc : escapable c = true
    · simp only [escaped, List.flatMap_cons, List.flatMap_nil, if_pos hc, List.append_nil, size_cons, size_nil, hone]
      omega
    · simp only [escaped, List.flatMap_cons, List.flatMap_nil, if_neg hc, List.append_nil, size_cons, size_nil]
      omega

theorem count_escaped (text : List Char) : (escaped text).count '%' = text.count '%' := by
  induction text with
  | nil => rfl
  | cons c text ih =>
    have hone : (escaped [c]).count '%' = [c].count '%' := by
      unfold escaped
      by_cases hc : escapable c = true <;> simp [hc]
    rw [escaped_cons, List.count_append, ih, hone, ← List.count_append, List.singleton_append]

theorem quoteExecArg_size {arg : String} (h : arg ≠ "") : (quoteExecArg arg).utf8ByteSize = quotedSize arg := by
  have hne : arg.toList ≠ [] := fun hnil => h (String.toList_eq_nil_iff.1 hnil)
  have hquote : Char.utf8Size '"' = 1 := by decide
  rw [utf8ByteSize_eq, quoteExecArg_toList, size_doubled, quotedSize, utf8ByteSize_eq, quoted]
  by_cases hsafe : arg.toList.all safeExecChar = true
  · rw [if_pos ⟨hne, hsafe⟩, if_pos hsafe, Nat.add_zero]
  · rw [if_neg fun hall => hsafe hall.2, if_neg hsafe, List.cons_append, size_cons, size_append, size_escaped, size_cons,
      size_nil, List.count_cons_of_ne (by decide), List.count_append, count_escaped, hquote]
    simp only [List.count_singleton]
    simp
    omega

theorem execLine_size {commandline : List String} (h : ∀ arg ∈ commandline, arg ≠ "") :
    (execLine commandline).utf8ByteSize = execSize commandline := by
  have hspace : Char.utf8Size ' ' = 1 := by decide
  induction commandline with
  | nil => rfl
  | cons arg rest ih =>
    have harg := quoteExecArg_size (h arg List.mem_cons_self)
    have hrest := ih fun a ha => h a (List.mem_cons_of_mem _ ha)
    cases rest with
    | nil => simpa [execLine, execSize] using harg
    | cons next rest =>
      rw [utf8ByteSize_eq, quoteExecArg_toList] at harg
      rw [utf8ByteSize_eq] at hrest
      rw [utf8ByteSize_eq, execLine_cons, size_append, size_cons, harg, hrest, hspace]
      simp only [execSize, List.map_cons, List.sum_cons, List.length_cons]
      omega

theorem mem_quoted {c : Char} (h : c ≠ '"' ∧ c ≠ '\\') {arg : List Char} : c ∈ quoted arg ↔ c ∈ arg := by
  have hescaped : c ∈ escaped arg ↔ c ∈ arg := by
    induction arg with
    | nil => rfl
    | cons d arg ih =>
      have hd : c ∈ escaped [d] ↔ c = d := by
        unfold escaped
        by_cases hesc : escapable d = true <;> simp [hesc, h.2]
      rw [escaped_cons, List.mem_append, ih, hd, List.mem_cons]
  unfold quoted
  split
  · rfl
  · simp [h.1, hescaped]

/-- Quoting brings in no character but quotes, backslashes and blanks. -/
theorem mem_execLine {c : Char} (h : c ≠ '"' ∧ c ≠ '\\') (hspace : c ≠ ' ') {commandline : List String} :
    c ∈ (execLine commandline).toList ↔ ∃ arg ∈ commandline, c ∈ arg.toList := by
  induction commandline with
  | nil => simp [execLine]
  | cons arg rest ih =>
    cases rest with
    | nil => simp [execLine, quoteExecArg_toList, mem_doubled, mem_quoted h]
    | cons next rest =>
      rw [execLine_cons, List.mem_append, mem_doubled, mem_quoted h, List.mem_cons, ih]
      simp [hspace]

/-! ## The lines of an entry -/

theorem doubled_head? (text : List Char) : (doubled text).head? = text.head? := by
  cases text with
  | nil => rfl
  | cons c text =>
    unfold doubled
    by_cases hc : c = '%' <;> simp [hc]

theorem doubled_getLast? (text : List Char) : (doubled text).getLast? = text.getLast? := by
  induction text using List.reverseRecOn with
  | nil => rfl
  | append_singleton text c =>
    unfold doubled
    rw [List.flatMap_append]
    by_cases hc : c = '%' <;> simp [hc]

/-- A quoted argument starts and ends with something to show. -/
theorem quoted_ends (arg : List Char) : (∀ c, (quoted arg).head? = some c → isWhitespace c = false) ∧
    ∀ c, (quoted arg).getLast? = some c → isWhitespace c = false := by
  unfold quoted
  split
  · next hsafe =>
    have hall := List.all_eq_true.1 hsafe.2
    refine ⟨fun c hc => (safe_plain (hall c ?_)).2.2, fun c hc => (safe_plain (hall c ?_)).2.2⟩
    · exact List.mem_of_mem_head? (Option.mem_def.2 hc)
    · exact List.mem_of_mem_getLast? (Option.mem_def.2 hc)
  · refine ⟨fun c hc => ?_, fun c hc => ?_⟩
    · cases hc
      decide
    · rw [List.getLast?_append] at hc
      cases hc
      decide

theorem quoted_ne_nil (arg : List Char) : doubled (quoted arg) ≠ [] := by
  have hne : quoted arg ≠ [] := by
    unfold quoted
    split
    · next hsafe => exact hsafe.1
    · simp
  obtain ⟨c, hc⟩ := List.exists_mem_of_ne_nil _ hne
  exact List.ne_nil_of_mem (mem_doubled.2 hc)

theorem execLine_ne_nil (arg : String) (rest : List String) : (execLine (arg :: rest)).toList ≠ [] := by
  cases rest with
  | nil => simpa [execLine, quoteExecArg_toList] using quoted_ne_nil arg.toList
  | cons next rest => simp [execLine_cons]

/-- So does an `Exec` line. -/
theorem execLine_ends (commandline : List String) :
    (∀ c, (execLine commandline).toList.head? = some c → isWhitespace c = false) ∧
      ∀ c, (execLine commandline).toList.getLast? = some c → isWhitespace c = false := by
  induction commandline with
  | nil => exact ⟨nofun, nofun⟩
  | cons arg rest ih =>
    obtain ⟨hfirst, hlast⟩ := quoted_ends arg.toList
    cases rest with
    | nil =>
      have hone : (execLine [arg]).toList = doubled (quoted arg.toList) := by simp [execLine, quoteExecArg]
      rw [hone, doubled_head?, doubled_getLast?]
      exact ⟨hfirst, hlast⟩
    | cons next rest =>
      rw [execLine_cons, List.head?_append_of_ne_nil _ (quoted_ne_nil _), doubled_head?, List.getLast?_append_cons,
        List.getLast?_cons_of_ne_nil (execLine_ne_nil next rest)]
      exact ⟨hfirst, ih.2⟩

/-! ## The entry -/

/-- The texts of the entry's lines. -/
def entryTexts (appId : String) (spec : AutostartSpec) : List (List Char) :=
  ["[Desktop Entry]".toList, "Type=Application".toList, "Name".toList ++ '=' :: appId.toList,
      "Exec".toList ++ '=' :: (execLine spec.commandline).toList] ++
    (if spec.dbusActivatable then ["DBusActivatable=true".toList] else []) ++ ["X-Tessera-Portal=background".toList]

/-- What the lines of the entry are meant to be. -/
def intendedLines (appId : String) (spec : AutostartSpec) : List Line :=
  [.group "Desktop Entry".toList, .pair "Type".toList "Application".toList,
      .pair "Name".toList (trimEnd isWhitespace appId.toList), .pair "Exec".toList (execLine spec.commandline).toList] ++
    (if spec.dbusActivatable then [.pair "DBusActivatable".toList "true".toList] else []) ++
    [.pair "X-Tessera-Portal".toList "background".toList]

/-- The entry has its one header and each of its keys once, and its command is the one that was
asked for. -/
structure EntryIntact (appId : String) (spec : AutostartSpec) : Prop where
  read : (lines (renderDesktopEntry appId spec).toList).map readLine = intendedLines appId spec
  runs : ∀ id, ∃ app, parseDesktopFile (some (bytes (renderDesktopEntry appId spec))) id = some app ∧
    expandExec app.exec [] = some spec.commandline

theorem renderDesktopEntry_eq (appId : String) (spec : AutostartSpec) : renderDesktopEntry appId spec =
    "[Desktop Entry]\nType=Application\nName=" ++ appId ++ "\nExec=" ++ execLine spec.commandline ++ "\n" ++
      (if spec.dbusActivatable then "DBusActivatable=true\n" else "") ++ "X-Tessera-Portal=background\n" := rfl

theorem renderDesktopEntry_toList (appId : String) (spec : AutostartSpec) :
    (renderDesktopEntry appId spec).toList = unlines (entryTexts appId spec) := by
  rw [renderDesktopEntry_eq]
  simp only [String.toList_append]
  unfold entryTexts
  cases spec.dbusActivatable <;> simp [unlines]

theorem renderDesktopEntry_size_le (appId : String) (spec : AutostartSpec) :
    (renderDesktopEntry appId spec).utf8ByteSize ≤ 100 + appId.utf8ByteSize + (execLine spec.commandline).utf8ByteSize := by
  have hhead : "[Desktop Entry]\nType=Application\nName=".utf8ByteSize = 38 := by decide
  have hexec : "\nExec=".utf8ByteSize = 6 := by decide
  have hbreak : "\n".utf8ByteSize = 1 := by decide
  have hdbus : (if spec.dbusActivatable then "DBusActivatable=true\n" else "").utf8ByteSize ≤ 21 := by
    split <;> decide
  have hmark : "X-Tessera-Portal=background\n".utf8ByteSize = 28 := by decide
  rw [renderDesktopEntry_eq]
  simp only [String.utf8ByteSize_append, hhead, hexec, hbreak, hmark]
  omega

theorem intendedLines_length (appId : String) (spec : AutostartSpec) :
    (intendedLines appId spec).length = (entryTexts appId spec).length := by
  unfold intendedLines entryTexts
  split <;> rfl

theorem control_ne_break {c : Char} (h : Notifications.isControl c = false) : c ≠ '\n' ∧ c ≠ '\r' := by
  refine ⟨?_, ?_⟩ <;> (rintro rfl; revert h; decide)

section

variable {appId : String} {spec : AutostartSpec} (happ : ∀ c ∈ appId.toList, Notifications.isControl c = false)

include happ

theorem entryTexts_chomp : (entryTexts appId spec).map chomp = entryTexts appId spec := by
  have hname : chomp ("Name".toList ++ '=' :: appId.toList) = "Name".toList ++ '=' :: appId.toList := by
    apply chomp_eq_self
    rw [List.getLast?_append_cons]
    intro hlast
    rcases List.mem_cons.1 (List.mem_of_mem_getLast? (Option.mem_def.2 hlast)) with heq | hin
    · cases heq
    · exact (control_ne_break (happ _ hin)).2 rfl
  have hexec : chomp ("Exec".toList ++ '=' :: (execLine spec.commandline).toList) =
      "Exec".toList ++ '=' :: (execLine spec.commandline).toList := by
    apply chomp_eq_self
    rw [List.getLast?_append_cons]
    intro hlast
    cases hline : (execLine spec.commandline).toList with
    | nil =>
      rw [hline] at hlast
      cases hlast
    | cons c rest =>
      rw [List.getLast?_cons_of_ne_nil (by simp [hline])] at hlast
      have := (execLine_ends spec.commandline).2 _ hlast
      revert this
      decide
  unfold entryTexts
  rw [List.map_append, List.map_append]
  simp only [List.map_cons, hname, hexec]
  cases spec.dbusActivatable <;> rfl

theorem entryTexts_whole (hargs : ∀ arg ∈ spec.commandline, '\n' ∉ arg.toList) :
    ∀ text ∈ entryTexts appId spec, '\n' ∉ text := by
  have hname : '\n' ∉ "Name".toList ++ '=' :: appId.toList := by
    simp only [List.mem_append, List.mem_cons, not_or]
    exact ⟨by decide, by decide, fun hin => (control_ne_break (happ _ hin)).1 rfl⟩
  have hexec : '\n' ∉ "Exec".toList ++ '=' :: (execLine spec.commandline).toList := by
    simp only [List.mem_append, List.mem_cons, not_or]
    refine ⟨by decide, by decide, fun hin => ?_⟩
    obtain ⟨arg, harg, hbreak⟩ := (mem_execLine (by decide) (by decide)).1 hin
    exact hargs arg harg hbreak
  unfold entryTexts
  intro text htext
  simp only [List.mem_append, List.mem_cons, List.not_mem_nil, or_false] at htext
  rcases htext with ((rfl | rfl | rfl | rfl) | hdbus) | rfl
  · decide
  · decide
  · exact hname
  · exact hexec
  · split at hdbus
    · rw [List.mem_singleton.1 hdbus]
      decide
    · cases hdbus
  · decide

/-- Without line feeds in the arguments the lines are the entry's texts. -/
theorem lines_rendered (hargs : ∀ arg ∈ spec.commandline, '\n' ∉ arg.toList) :
    lines (renderDesktopEntry appId spec).toList = entryTexts appId spec := by
  rw [renderDesktopEntry_toList, lines_unlines (entryTexts_whole happ hargs), entryTexts_chomp happ]

end

theorem readLine_exec (commandline : List String) : readLine ("Exec".toList ++ '=' :: (execLine commandline).toList) =
    .pair "Exec".toList (execLine commandline).toList := by
  rw [readLine_pair (by decide) (by decide), trimEnd_eq_self (execLine_ends commandline).2]
  rfl

theorem readLine_name (appId : String) : readLine ("Name".toList ++ '=' :: appId.toList) =
    .pair "Name".toList (trimEnd isWhitespace appId.toList) := by
  rw [readLine_pair (by decide) (by decide)]
  rfl

theorem readLine_fixed : readLine "[Desktop Entry]".toList = .group "Desktop Entry".toList ∧
    readLine "Type=Application".toList = .pair "Type".toList "Application".toList ∧
    readLine "DBusActivatable=true".toList = .pair "DBusActivatable".toList "true".toList ∧
    readLine "X-Tessera-Portal=background".toList = .pair "X-Tessera-Portal".toList "background".toList := by
  refine ⟨rfl, ?_, ?_, ?_⟩
  · exact @readLine_pair "Type".toList (by decide) (by decide) "Application".toList
  · exact @readLine_pair "DBusActivatable".toList (by decide) (by decide) "true".toList
  · exact @readLine_pair "X-Tessera-Portal".toList (by decide) (by decide) "background".toList

theorem entryTexts_read (appId : String) (spec : AutostartSpec) :
    (entryTexts appId spec).map readLine = intendedLines appId spec := by
  obtain ⟨hgroup, htype, hdbus, hmark⟩ := readLine_fixed
  unfold entryTexts intendedLines
  rw [List.map_append, List.map_append]
  simp only [List.map_cons, List.map_nil, hgroup, htype, readLine_name, readLine_exec, hmark]
  cases spec.dbusActivatable
  · rfl
  · simp only [if_true, List.map_cons, List.map_nil, hdbus]

theorem set_name (entry : Entry) (value : List Char) : entry.set "Name" value = some { entry with name := some value } := rfl

theorem set_exec (entry : Entry) (line : String) : entry.set "Exec" line.toList =
    some { entry with exec := if line.utf8ByteSize ≤ maxExecBytes then some line else entry.exec } := by
  rw [show entry.set "Exec" line.toList = if (String.ofList line.toList).utf8ByteSize ≤ maxExecBytes then
    some { entry with exec := some (String.ofList line.toList) } else some entry from rfl, String.ofList_toList]
  split <;> rfl

theorem set_ignored (entry : Entry) (value : List Char) : entry.set "Type" value = some entry ∧
    entry.set "DBusActivatable" value = some entry ∧ entry.set "X-Tessera-Portal" value = some entry := ⟨rfl, rfl, rfl⟩

/-- What the reader makes of the texts of an entry. -/
theorem entryLines_rendered (appId : String) (spec : AutostartSpec) : entryLines .empty (entryTexts appId spec) = some
    { Entry.empty with
      inEntry := true
      name := some (trim isWhitespace (trimEnd isWhitespace appId.toList))
      exec := if (execLine spec.commandline).utf8ByteSize ≤ maxExecBytes then some (execLine spec.commandline)
        else none } := by
  obtain ⟨hgroup, htype, hdbus, hmark⟩ := readLine_fixed
  have hvalue := trim_eq_self (execLine_ends spec.commandline).1 (execLine_ends spec.commandline).2
  unfold entryTexts
  simp only [List.cons_append, List.nil_append, entryLines, hgroup, htype, readLine_name, readLine_exec, decide_true,
    String.ofList_toList, (set_ignored _ _).1, set_name, hvalue, set_exec, if_true]
  cases spec.dbusActivatable
  · simp only [Bool.false_eq_true, if_false, List.nil_append, entryLines, hmark, String.ofList_toList,
      (set_ignored _ _).2.2, if_true]
    rfl
  · simp only [if_true, List.cons_append, List.nil_append, entryLines, hdbus, hmark, String.ofList_toList,
      (set_ignored _ _).2.1, (set_ignored _ _).2.2]
    rfl

/-- An entry of intact lines is found with its command where that is not too long. -/
theorem parse_rendered {appId : String} {spec : AutostartSpec} (happ : appId.utf8ByteSize ≤ maxAppIdBytes)
    (hlines : lines (renderDesktopEntry appId spec).toList = entryTexts appId spec)
    (hsize : (execLine spec.commandline).utf8ByteSize ≤ maxExecBytes) (id : String) :
    ∃ app, parseDesktopFile (some (bytes (renderDesktopEntry appId spec))) id = some app ∧
      app.exec = execLine spec.commandline := by
  have hfits : (bytes (renderDesktopEntry appId spec)).length ≤ maxEntryBytes := by
    have hle := renderDesktopEntry_size_le appId spec
    have hlength : (bytes (renderDesktopEntry appId spec)).length = (renderDesktopEntry appId spec).utf8ByteSize := rfl
    simp only [maxAppIdBytes, maxExecBytes, maxEntryBytes] at happ hsize ⊢
    omega
  have htext : readText (some (bytes (renderDesktopEntry appId spec))) = some (renderDesktopEntry appId spec).toList := by
    rw [readText, Option.filter_some, if_pos (decide_eq_true hfits), Option.map_some, fromUtf8Lossy_bytes]
  rw [parseDesktopFile, htext]
  simp only [Option.bind_eq_bind, Option.bind_some, hlines, entryLines_rendered, if_pos hsize]
  exact ⟨_, rfl, rfl⟩

/-- An entry that is found has an `Exec` line within the bound. -/
theorem rendered_fits {appId : String} {spec : AutostartSpec} {id : String} {app : AppInfo}
    (hlines : lines (renderDesktopEntry appId spec).toList = entryTexts appId spec)
    (h : parseDesktopFile (some (bytes (renderDesktopEntry appId spec))) id = some app) :
    (execLine spec.commandline).utf8ByteSize ≤ maxExecBytes := by
  by_contra hlong
  obtain ⟨text, htext, hentry⟩ := Option.bind_eq_some_iff.1 h
  obtain ⟨file, hfile, rfl⟩ := Option.map_eq_some_iff.1 htext
  obtain rfl : bytes (renderDesktopEntry appId spec) = file := Option.some.inj (Option.filter_eq_some_iff.1 hfile).1
  rw [fromUtf8Lossy_bytes, hlines] at hentry
  simp [entryLines_rendered, hlong, Entry.app] at hentry

/-- A line feed in an argument is one more line in the entry. -/
theorem read_whole {appId : String} {spec : AutostartSpec}
    (h : (lines (renderDesktopEntry appId spec).toList).map readLine = intendedLines appId spec) :
    ∀ arg ∈ spec.commandline, '\n' ∉ arg.toList := by
  have hlength := congrArg List.length h
  have htexts : entryTexts appId spec ≠ [] := List.append_ne_nil_of_right_ne_nil _ (List.cons_ne_nil _ _)
  rw [List.length_map, renderDesktopEntry_toList, intendedLines_length, lines_unlines_length htexts] at hlength
  have hnone : ((entryTexts appId spec).map (List.count '\n')).sum = 0 := by omega
  intro arg harg hbreak
  have hin : "Exec".toList ++ '=' :: (execLine spec.commandline).toList ∈ entryTexts appId spec := by
    apply List.mem_append_left
    apply List.mem_append_left
    exact .tail _ (.tail _ (.tail _ (.head _)))
  have hzero := List.sum_eq_zero_iff_forall_eq_nat.1 hnone _ (List.mem_map_of_mem hin)
  refine List.count_eq_zero.1 hzero (List.mem_append_right _ (List.mem_cons_of_mem _ ?_))
  exact (mem_execLine (by decide) (by decide)).2 ⟨arg, harg, hbreak⟩

/-- The entry of an accepted request is read back as it was meant exactly when no argument has
a line feed and the `Exec` line is within the reader's bound. -/
theorem entry_intact_iff {appId window reason : String} {options : OptionMap} {prompt : ConfirmRequest}
    {spec : AutostartSpec} (h : parseRequest appId window reason options = .ok (prompt, some spec)) :
    EntryIntact appId spec ↔ (∀ arg ∈ options.strings "commandline", '\n' ∉ arg.toList) ∧
      execSize (options.strings "commandline") ≤ maxExecBytes := by
  have haccepted := parseRequest_accepted h
  have hspec : spec.commandline = options.strings "commandline" := by
    have heq := haccepted.autostart_eq
    unfold autostartSpec at heq
    split at heq
    · rw [Option.some.inj heq]
    · cases heq
  have hargs := haccepted.argsNonempty
  rw [← hspec] at hargs ⊢
  rw [← execLine_size hargs]
  constructor
  · intro hintact
    have hwhole := read_whole hintact.read
    obtain ⟨app, happ, -⟩ := hintact.runs appId
    exact ⟨hwhole, rendered_fits (lines_rendered haccepted.appIdClean hwhole) happ⟩
  · rintro ⟨hwhole, hsize⟩
    have hlines := lines_rendered haccepted.appIdClean hwhole
    refine ⟨by rw [hlines, entryTexts_read], fun id => ?_⟩
    obtain ⟨app, happ, hexec⟩ := parse_rendered haccepted.appIdSize hlines hsize id
    refine ⟨app, happ, ?_⟩
    rw [hexec, expandExec_execLine, List.filter_eq_self.2 fun arg harg => by simpa using hargs arg harg]

/-- Autostart with this command line. -/
def startsWith (commandline : List String) : OptionMap
  | "autostart" => some (.bool true)
  | "commandline" => some (.strings commandline)
  | _ => none

theorem entry_intact_iff_spaced : EntryIntact "org.app" ⟨["sh", "-c", "say \"hi\" 100%"], false⟩ := by
  have hok : parseRequest "org.app" "" "" (startsWith ["sh", "-c", "say \"hi\" 100%"]) = .ok (_, some _) :=
    parseRequest_of_checks (by decide) (by decide) (by decide) bounded_empty
  exact (entry_intact_iff hok).2 ⟨by decide, by decide⟩

/-- A line feed in an argument brings in a second `Exec` line, which is the one that counts. -/
theorem entry_injected : ∃ prompt spec,
    parseRequest "org.app" "" "" (startsWith ["sh", "x\nExec=evil\n"]) = .ok (prompt, some spec) ∧
      (entryLines .empty (lines (renderDesktopEntry "org.app" spec).toList)).bind (·.exec) = some "evil" ∧
      ¬ EntryIntact "org.app" spec := by
  have hok : parseRequest "org.app" "" "" (startsWith ["sh", "x\nExec=evil\n"]) = .ok (_, some _) :=
    parseRequest_of_checks (by decide) (by decide) (by decide) bounded_empty
  refine ⟨_, ⟨["sh", "x\nExec=evil\n"], false⟩, hok, ?_, fun hintact => ?_⟩
  · rw [renderDesktopEntry_toList]
    decide +kernel
  · have hbreak := read_whole hintact.read "x\nExec=evil\n" (by decide)
    revert hbreak
    decide

end AtriumPortal.Portal.Background
