import AtriumPortal.Lib.Text
import AtriumPortal.Prompter.Invoke
/-!
# The prompter's answer

`prompter.rs`: what `invoke_raw` makes of the output, the diagnostics and the status of a prompter
that has exited, with the slice that it takes of an output that is no response. `answer_returns_iff`:
exactly when it comes to a result or an error.
-/
open AtriumPortal.Lib.Text
open AtriumPortal.Lib.Path (Bytes)

namespace AtriumPortal.Prompter

def loaderHint : String :=
  "the prompter image could not be started — usually a shared library it was " ++
    "linked against is missing or was replaced under it; rebuild and reinstall the " ++
    "prompter against the installed optics release"

/-- Fold a retained stderr tail into one diagnostic line. -/
def stderrDiagnostic (tail : Bytes) : Option String :=
  match (((lines (fromUtf8Lossy tail)).map (trim isWhitespace)).filter (· ≠ [])).map String.ofList with
  | [] => none
  | [first] => some s!"{first} ({loaderHint})"
  | first :: second :: _ => some s!"{first}; {second} ({loaderHint})"

/-- The part of an invalid response that its error quotes; `none` when the slice panics. -/
def preview (text : List Char) : Option (List Char) :=
  if 256 < size text then (sliceTo 256 text).map (· ++ ['.', '.', '.']) else some text

section
-- `serde_json` on the response, and `Debug` of a text.
variable (decode : Decode) (debug : List Char → String)

/-- What `invoke_raw` answers for a prompter that has exited: `stdout` is what the reader thread
returns, `none` when it panicked, and `tail` what the other one retained. `none` is a panic. -/
def answered (status : ExitStatus) (tail : Option Bytes) (stdout : Option (Except String Bytes)) :
    Option (Except InvokeError PromptResult) :=
  match stdout with
  | none => some (.error (.failed "prompter response reader panicked"))
  | some (.error error) => some (.error (.failed s!"could not read prompter response: {error}"))
  | some (.ok bytes) =>
    if maxMessageBytes < bytes.length then
      some (.error (.failed "prompter response exceeds the 8 MiB process-contract limit"))
    else if bytes.isEmpty then
      match if status.code = some 127 then stderrDiagnostic (tail.getD []) else none with
      | some diagnostic => some (.error (.failed s!"prompter exited with {status.text}: {diagnostic}"))
      | none => some (.error (.failed s!"prompter exited with {status.text} and no response"))
    else
      match decode bytes with
      | .error error => (preview (fromUtf8Lossy bytes)).map fun quoted => .error (.failed
          s!"prompter exited with {status.text} and returned invalid JSON: {error}; stdout was: {debug quoted}")
      | .ok response =>
        match response.intoResult with
        | .error error => some (.error (.failed error))
        | .ok (.failed message) => some (.error (.failed message))
        | .ok result => some (.ok result)

/-- The reader takes one byte more than a response may have. -/
def readStdout (written : Bytes) : Bytes := written.take (maxMessageBytes + 1)

/-- The output is taken for a response, is none, and has a character across the end of the slice. -/
structure CutsCharacter (written : Bytes) : Prop where
  nonempty : written ≠ []
  within : written.length ≤ maxMessageBytes
  invalid : ∃ error, decode written = .error error
  across : ∃ a c b, fromUtf8Lossy written = a ++ c :: b ∧ size a < 256 ∧ 256 < size a + c.utf8Size

theorem preview_eq_none {text : List Char} :
    preview text = none ↔ ∃ a c b, text = a ++ c :: b ∧ size a < 256 ∧ 256 < size a + c.utf8Size := by
  unfold preview
  split
  · next hlong => rw [Option.map_eq_none_iff, sliceTo_eq_none (Nat.le_of_lt hlong)]
  · next hshort =>
    refine ⟨by rintro ⟨⟩, ?_⟩
    rintro ⟨a, c, b, rfl, -, hacross⟩
    rw [size_append, size_cons] at hshort
    omega

theorem readStdout_within {written : Bytes} (h : written.length ≤ maxMessageBytes) : readStdout written = written :=
  List.take_of_length_le (Nat.le_succ_of_le h)

theorem readStdout_over {written : Bytes} (h : maxMessageBytes < written.length) :
    maxMessageBytes < (readStdout written).length := by
  rw [readStdout, List.length_take]
  exact Nat.lt_min.2 ⟨Nat.lt_succ_self _, h⟩

/-- An answer has the result that `readAnswer` gives; their errors differ in what is quoted. -/
theorem answered_readAnswer {status : ExitStatus} {tail : Option Bytes} {stdout : Option (Except String Bytes)}
    {answer : Except InvokeError PromptResult} (h : answered decode debug status tail stdout = some answer) :
    answer.toOption = (readAnswer decode status ⟨stdout, stderrDiagnostic (tail.getD [])⟩).toOption := by
  unfold answered at h
  unfold readAnswer
  rcases stdout with _ | error | bytes
  · cases h
    rfl
  · cases h
    rfl
  · dsimp only at h ⊢
    split at h
    · next hover =>
      cases h
      rw [if_pos hover]
    · next hwithin =>
      rw [if_neg hwithin]
      split at h
      · next hempty =>
        rw [if_pos hempty]
        split at h <;> cases h <;> split <;> rfl
      · next hempty =>
        rw [if_neg hempty]
        cases hdecode : decode bytes with
        | error error =>
          rw [hdecode] at h
          obtain ⟨quoted, -, rfl⟩ := Option.map_eq_some_iff.1 h
          rfl
        | ok response =>
          rw [hdecode] at h
          dsimp only at h ⊢
          cases hresult : response.intoResult with
          | error error =>
            rw [hresult] at h
            cases h
            rfl
          | ok result =>
            rw [hresult] at h
            cases result <;> cases h <;> rfl

/-- Only the slice panics. -/
theorem answered_eq_none (status : ExitStatus) (tail : Option Bytes) (written : Bytes) :
    answered decode debug status tail (some (.ok (readStdout written))) = none ↔ CutsCharacter decode written := by
  -- longer output is not quoted: the limit is checked first
  rcases Nat.lt_or_ge maxMessageBytes written.length with hover | hwithin
  · rw [answered, if_pos (readStdout_over hover)]
    exact ⟨by rintro ⟨⟩, fun h => absurd h.within (Nat.not_le.2 hover)⟩
  · rw [readStdout_within hwithin, answered, if_neg (Nat.not_lt.2 hwithin)]
    cases written with
    | nil =>
      refine ⟨fun h => ?_, fun h => absurd rfl h.nonempty⟩
      rw [List.isEmpty_nil, if_pos rfl] at h
      split at h <;> cases h
    | cons b rest =>
      rw [List.isEmpty_cons, if_neg Bool.false_ne_true]
      cases hdecode : decode (b :: rest) with
      | error error =>
        dsimp only
        rw [Option.map_eq_none_iff, preview_eq_none]
        exact ⟨fun h => ⟨List.cons_ne_nil _ _, hwithin, ⟨error, hdecode⟩, h⟩, fun h => h.across⟩
      | ok response =>
        refine ⟨fun h => ?_, fun h => ?_⟩
        · dsimp only at h
          split at h
          · cases h
          · cases h
          · cases h
        · obtain ⟨error, herror⟩ := h.invalid
          rw [hdecode] at herror
          cases herror

/-- Whatever the prompter writes and says, however it exits and however the reading ends: the answer
is a result or an error, unless the slice cuts a character of the output. -/
theorem answer_returns_iff (status : ExitStatus) (tail : Option Bytes) (read : Option (Except String Bytes)) :
    (answered decode debug status tail (read.map (·.map readStdout))).isSome = true ↔
      ∀ written, read = some (.ok written) → ¬ CutsCharacter decode written := by
  rcases read with _ | error | written
  · exact ⟨fun _ => by rintro _ ⟨⟩, fun _ => rfl⟩
  · exact ⟨fun _ => by rintro _ ⟨⟩, fun _ => rfl⟩
  · rw [← Option.ne_none_iff_isSome, Option.map_some]
    show answered decode debug status tail (some (.ok (readStdout written))) ≠ none ↔ _
    rw [Ne, answered_eq_none]
    constructor
    · rintro h _ ⟨⟩
      exact h
    · exact fun h => h written rfl

theorem utf8Size_ascii : ∀ n < 0x80, (Char.ofNat n).utf8Size = 1 := by decide +kernel

/-- ASCII output has no character to cut. -/
theorem ascii_uncut {written : Bytes} (h : ∀ b ∈ written, b < 0x80) : ¬ CutsCharacter decode written := by
  have hsize : ∀ c ∈ fromUtf8Lossy written, c.utf8Size = 1 := by
    induction written with
    | nil => exact fun c hc => (List.not_mem_nil hc).elim
    | cons b rest ih =>
      rw [fromUtf8Lossy_ascii (h b (List.mem_cons_self ..))]
      intro c hc
      rcases List.mem_cons.1 hc with rfl | hc
      · exact utf8Size_ascii _ (UInt8.lt_iff_toNat_lt.1 (h b (List.mem_cons_self ..)))
      · exact ih (fun d hd => h d (List.mem_cons_of_mem _ hd)) c hc
  intro hcut
  obtain ⟨a, c, b, htext, hbefore, hbehind⟩ := hcut.across
  have hone := hsize c (by rw [htext]; exact List.mem_append_right _ (List.mem_cons_self ..))
  omega

end

/-- 255 letters and a character of two bytes. -/
def cutOutput : Bytes := List.replicate 255 0x78 ++ [0xC3, 0xA9]

/-- An output that is no response, as `serde_json` has it, and no answer. -/
theorem cut_output_panics :
    answered (fun _ => .error "expected value at line 1 column 1") String.ofList ⟨some 1, "exit status: 1"⟩ (some [])
      (some (.ok (readStdout cutOutput))) = none := by
  decide +kernel

end AtriumPortal.Prompter
