import AtriumPortal.Lib.Lines
import AtriumPortal.Lib.Stream
/-!
# Lines of the notification stream

`notify.rs`: how one bounded line is read. `reads_lines_iff`: repeated calls are a
split of the stream at its newlines exactly when no line is longer than what one call
reads and drains.
-/
open AtriumPortal.Lib.Lines AtriumPortal.Lib.Stream
open AtriumPortal.Lib.Path (Bytes)

namespace AtriumPortal.Prompter

def maxNotifyLineBytes : Nat := 64 * 1024

/-- The byte of a line feed. -/
abbrev newline : UInt8 := 10

/-- `Ok(None)` is the end of the stream; an oversized line is drained and reported. -/
def readLineBounded (r : Reader) : Except Error (Option (Except String Bytes)) × Reader :=
  match readUntil newline (maxNotifyLineBytes + 1) r with
  | (.error e, r') => (.error e, r')
  | (.ok line, r') =>
    if line = [] then (.ok none, r')
    else if line.getLast? ≠ some newline ∧ maxNotifyLineBytes < line.length then
      match readUntil newline (maxNotifyLineBytes * 4) r' with
      | (.error e, r'') => (.error e, r'')
      | (.ok _, r'') => (.ok (some (.error "stream line is oversized")), r'')
    else (.ok (some (.ok line)), r')

/-- The results of repeated calls up to the end of the stream. -/
inductive Reads : Reader → List (Except String Bytes) → Prop
  | eof {r r' : Reader} (h : readLineBounded r = (.ok none, r')) : Reads r []
  | line {r r' : Reader} {result : Except String Bytes} {results : List (Except String Bytes)}
      (h : readLineBounded r = (.ok (some result), r')) (rest : Reads r' results) : Reads r (result :: results)

/-! ## Splitting at newlines -/

/-- A line without its newline. -/
def lineContent (line : Bytes) : Bytes := if line.getLast? = some newline then line.dropLast else line

def lineResult (line : Bytes) : Except String Bytes :=
  if maxNotifyLineBytes < (lineContent line).length then .error "stream line is oversized" else .ok line

/-- The bytes that one call reads at most, with those it drains. -/
def drainedBytes : Nat := maxNotifyLineBytes + 1 + maxNotifyLineBytes * 4

/-- No line is longer than what one call takes. -/
def Drainable (stream : Bytes) : Prop := ∀ line ∈ splitAfter newline stream, line.length ≤ drainedBytes

theorem Reads.unique {r : Reader} {a b : List (Except String Bytes)} (ha : Reads r a) (hb : Reads r b) : a = b := by
  induction ha generalizing b with
  | eof h =>
    cases hb with
    | eof => rfl
    | line h' _ => cases h.symm.trans h'
  | line h _ ih =>
    cases hb with
    | eof h' => cases h.symm.trans h'
    | line h' rest =>
      cases h.symm.trans h'
      rw [ih rest]

/-! ## One call -/

/-- What one call makes of the bytes to come: its result and what is left. -/
def nextLine (stream : Bytes) : Option (Except String Bytes × Bytes) :=
  let (line, rest) := scan newline (maxNotifyLineBytes + 1) stream
  if line = [] then none
  else if line.getLast? ≠ some newline ∧ maxNotifyLineBytes < line.length then
    some (.error "stream line is oversized", (scan newline (maxNotifyLineBytes * 4) rest).2)
  else some (.ok line, rest)

/-- On a calm reader a call is `nextLine`, however the bytes come. -/
theorem readLineBounded_calm {r : Reader} (hr : Calm r) {result : Except String Bytes} {rest : Bytes}
    (h : nextLine (content r) = some (result, rest)) :
    ∃ r', readLineBounded r = (.ok (some result), r') ∧ Calm r' ∧ content r' = rest := by
  obtain ⟨r₁, hread, hcalm, hleft⟩ := readUntil_calm newline (maxNotifyLineBytes + 1) hr
  obtain ⟨r₂, hdrain, hcalm₂, hleft₂⟩ := readUntil_calm newline (maxNotifyLineBytes * 4) hcalm
  unfold nextLine at h
  dsimp only at h
  unfold readLineBounded
  rw [hread]
  dsimp only
  by_cases hnil : (scan newline (maxNotifyLineBytes + 1) (content r)).1 = []
  · rw [if_pos hnil] at h
    cases h
  · rw [if_neg hnil] at h ⊢
    split at h
    · next hlong =>
      cases h
      rw [if_pos hlong, hdrain]
      exact ⟨r₂, rfl, hcalm₂, by rw [hleft₂, hleft]⟩
    · next hshort =>
      cases h
      rw [if_neg hshort]
      exact ⟨r₁, rfl, hcalm, hleft⟩

theorem readLineBounded_eof {r : Reader} (hr : Calm r) (h : content r = []) :
    ∃ r', readLineBounded r = (.ok none, r') := by
  obtain ⟨r₁, hread, -, -⟩ := readUntil_calm newline (maxNotifyLineBytes + 1) hr
  rw [h, scan_nil] at hread
  unfold readLineBounded
  rw [hread]
  exact ⟨r₁, rfl⟩

section

variable {a : Bytes} (h : newline ∉ a)

include h

theorem last_ne : a.getLast? ≠ some newline := fun hlast => h (List.mem_of_mem_getLast? (Option.mem_def.2 hlast))

theorem nextLine_short (hn : a.length ≤ maxNotifyLineBytes) (rest : Bytes) :
    nextLine (a ++ newline :: rest) = some (.ok (a ++ [newline]), rest) := by
  rw [nextLine, scan_line h (Nat.lt_succ_of_le hn)]
  simp

/-- Past the bound the first scan ends before the newline. -/
theorem nextLine_over (hn : maxNotifyLineBytes < a.length) (rest : Bytes) : nextLine (a ++ rest) =
    some (.error "stream line is oversized",
      (scan newline (maxNotifyLineBytes * 4) (a.drop (maxNotifyLineBytes + 1) ++ rest)).2) := by
  have hlength : (a.take (maxNotifyLineBytes + 1)).length = maxNotifyLineBytes + 1 := List.length_take_of_le hn
  have hne : a.take (maxNotifyLineBytes + 1) ≠ [] := by
    intro hnil
    rw [hnil] at hlength
    cases hlength
  have hlong : (a.take (maxNotifyLineBytes + 1)).getLast? ≠ some newline ∧
      maxNotifyLineBytes < (a.take (maxNotifyLineBytes + 1)).length :=
    ⟨last_ne fun hin => h (List.mem_of_mem_take hin), by omega⟩
  rw [nextLine, scan_limit h hn]
  dsimp only
  rw [if_neg hne, if_pos hlong]

theorem nextLine_long (hn : maxNotifyLineBytes < a.length) (hn' : a.length < drainedBytes) (rest : Bytes) :
    nextLine (a ++ newline :: rest) = some (.error "stream line is oversized", rest) := by
  have hdrop : newline ∉ a.drop (maxNotifyLineBytes + 1) := fun hin => h (List.mem_of_mem_drop hin)
  have hfits : (a.drop (maxNotifyLineBytes + 1)).length < maxNotifyLineBytes * 4 := by
    rw [List.length_drop]
    unfold drainedBytes at hn'
    omega
  rw [nextLine_over h hn, scan_line hdrop hfits]

/-- A line that is longer than what is drained is left in the middle. -/
theorem nextLine_huge (hn : drainedBytes ≤ a.length) (rest : Bytes) :
    nextLine (a ++ rest) = some (.error "stream line is oversized", a.drop drainedBytes ++ rest) := by
  have hdrop : newline ∉ a.drop (maxNotifyLineBytes + 1) := fun hin => h (List.mem_of_mem_drop hin)
  have hlong : maxNotifyLineBytes < a.length := by
    unfold drainedBytes at hn
    omega
  have hlimit : maxNotifyLineBytes * 4 ≤ (a.drop (maxNotifyLineBytes + 1)).length := by
    rw [List.length_drop]
    unfold drainedBytes at hn
    omega
  rw [nextLine_over h hlong, scan_limit hdrop hlimit, List.drop_drop]
  rfl

theorem nextLine_last (hne : a ≠ []) (hn : a.length ≤ maxNotifyLineBytes) : nextLine a = some (.ok a, []) := by
  have hlong : ¬ (a.getLast? ≠ some newline ∧ maxNotifyLineBytes < a.length) := by omega
  rw [nextLine, scan_open h (Nat.le_succ_of_le hn)]
  dsimp only
  rw [if_neg hne, if_neg hlong]

theorem nextLine_last_long (hn : maxNotifyLineBytes < a.length) (hn' : a.length ≤ drainedBytes) :
    nextLine a = some (.error "stream line is oversized", []) := by
  have hdrop : newline ∉ a.drop (maxNotifyLineBytes + 1) := fun hin => h (List.mem_of_mem_drop hin)
  have hfits : (a.drop (maxNotifyLineBytes + 1)).length ≤ maxNotifyLineBytes * 4 := by
    rw [List.length_drop]
    unfold drainedBytes at hn'
    omega
  have hover := nextLine_over h hn []
  rwa [List.append_nil, List.append_nil, scan_open hdrop hfits] at hover

theorem lineResult_last : lineResult a =
    if maxNotifyLineBytes < a.length then .error "stream line is oversized" else .ok a := by
  rw [lineResult, lineContent, if_neg (last_ne h)]

end

/-! ## Repeated calls -/

theorem lineResult_line (a : Bytes) : lineResult (a ++ [newline]) =
    if maxNotifyLineBytes < a.length then .error "stream line is oversized" else .ok (a ++ [newline]) := by
  simp [lineResult, lineContent]

/-- The results of repeated calls: at least one for each line, and more where a line is not drained. -/
structure Splits (stream : Bytes) (results : List (Except String Bytes)) : Prop where
  intact : Drainable stream → results = (splitAfter newline stream).map lineResult
  many : (splitAfter newline stream).length ≤ results.length
  torn : ¬ Drainable stream → (splitAfter newline stream).length < results.length

theorem drainable_line {a : Bytes} (h : newline ∉ a) (rest : Bytes) :
    Drainable (a ++ newline :: rest) ↔ a.length < drainedBytes ∧ Drainable rest := by
  unfold Drainable
  rw [splitAfter_break h, List.forall_mem_cons, List.length_append]
  exact Iff.rfl

/-- A call that reads its line as a whole. -/
theorem Splits.line {a rest : Bytes} {results : List (Except String Bytes)} (h : newline ∉ a) (hn : a.length < drainedBytes)
    (hrest : Splits rest results) : Splits (a ++ newline :: rest) (lineResult (a ++ [newline]) :: results) := by
  have hpieces := splitAfter_break h rest
  refine ⟨fun hd => ?_, ?_, fun hd => ?_⟩
  · rw [hpieces, List.map_cons, hrest.intact ((drainable_line h rest).1 hd).2]
  · rw [hpieces, List.length_cons, List.length_cons]
    exact Nat.succ_le_succ hrest.many
  · rw [hpieces, List.length_cons, List.length_cons]
    exact Nat.succ_lt_succ (hrest.torn fun hd' => hd ((drainable_line h rest).2 ⟨hn, hd'⟩))

/-- A call that leaves the rest of its line to the next one. -/
theorem Splits.huge {a rest : Bytes} {results : List (Except String Bytes)} (h : newline ∉ a) (hn : drainedBytes ≤ a.length)
    (hrest : Splits (a.drop drainedBytes ++ newline :: rest) results) :
    Splits (a ++ newline :: rest) (.error "stream line is oversized" :: results) := by
  have hdrop : newline ∉ a.drop drainedBytes := fun hin => h (List.mem_of_mem_drop hin)
  have hmany := hrest.many
  rw [splitAfter_break hdrop, List.length_cons] at hmany
  refine ⟨fun hd => ?_, ?_, fun _ => ?_⟩
  · have := ((drainable_line h rest).1 hd).1
    omega
  · rw [splitAfter_break h, List.length_cons, List.length_cons]
    omega
  · rw [splitAfter_break h, List.length_cons, List.length_cons]
    omega

theorem Splits.huge_last {a : Bytes} {results : List (Except String Bytes)} (h : newline ∉ a) (hn : drainedBytes < a.length)
    (hrest : Splits (a.drop drainedBytes) results) : Splits a (.error "stream line is oversized" :: results) := by
  have hdrop : newline ∉ a.drop drainedBytes := fun hin => h (List.mem_of_mem_drop hin)
  have hpieces : splitAfter newline a = [a] := by
    refine splitAfter_last h fun hnil => ?_
    rw [hnil] at hn
    cases hn
  have hmany := hrest.many
  rw [splitAfter_last hdrop fun hnil => by rw [List.drop_eq_nil_iff] at hnil; omega] at hmany
  refine ⟨fun hd => ?_, ?_, fun _ => ?_⟩
  · have := hd a (by rw [hpieces]; exact List.mem_singleton_self a)
    omega
  · rw [hpieces, List.length_cons]
    exact Nat.succ_le_succ (Nat.zero_le _)
  · rw [hpieces, List.length_cons]
    exact Nat.succ_lt_succ hmany

/-- The call that reads the last line. -/
theorem Splits.last {a : Bytes} (h : newline ∉ a) (hne : a ≠ []) (hn : a.length ≤ drainedBytes) :
    Splits a [lineResult a] := by
  have hpieces := splitAfter_last h hne
  refine ⟨fun _ => by rw [hpieces, List.map_singleton], by rw [hpieces]; exact Nat.le_refl _, fun hd => absurd ?_ hd⟩
  intro line hline
  rw [hpieces, List.mem_singleton] at hline
  exact hline ▸ hn

/-- Repeated calls reach the end of a calm reader. -/
theorem reads_splits {r : Reader} (hr : Calm r) : ∃ results, Reads r results ∧ Splits (content r) results := by
  induction hlen : (content r).length using Nat.strongRecOn generalizing r with
  | ind n ih =>
    by_cases hin : newline ∈ content r
    · obtain ⟨a, rest, hs, ha⟩ := List.eq_append_cons_of_mem hin
      have hlength : n = a.length + 1 + rest.length := by
        rw [← hlen, hs, List.length_append, List.length_cons]
        omega
      by_cases hhuge : drainedBytes ≤ a.length
      · -- the drain stops within the line, and its rest is the next line
        obtain ⟨r', hcall, hr', hleft⟩ := readLineBounded_calm hr (hs ▸ nextLine_huge ha hhuge (newline :: rest))
        have hless : (content r').length < n := by
          rw [hleft, List.length_append, List.length_drop, List.length_cons]
          unfold drainedBytes maxNotifyLineBytes at hhuge ⊢
          omega
        obtain ⟨results, hreads, hsplits⟩ := ih _ hless hr' rfl
        rw [hs]
        exact ⟨_, .line hcall hreads, .huge ha hhuge (hleft ▸ hsplits)⟩
      · have hline : nextLine (content r) = some (lineResult (a ++ [newline]), rest) := by
          rw [hs, lineResult_line]
          split
          · next hlong => exact nextLine_long ha hlong (Nat.not_le.1 hhuge) rest
          · next hshort => exact nextLine_short ha (Nat.not_lt.1 hshort) rest
        obtain ⟨r', hcall, hr', hleft⟩ := readLineBounded_calm hr hline
        obtain ⟨results, hreads, hsplits⟩ := ih _ (by rw [hleft]; omega) hr' rfl
        rw [hs]
        exact ⟨_, .line hcall hreads, .line ha (Nat.not_le.1 hhuge) (hleft ▸ hsplits)⟩
    · by_cases hnil : content r = []
      · obtain ⟨r', hcall⟩ := readLineBounded_eof hr hnil
        rw [hnil]
        exact ⟨[], .eof hcall, fun _ => rfl, Nat.le_refl _, fun hd => absurd (fun _ hline => absurd hline List.not_mem_nil) hd⟩
      · -- a last line, which the end of the stream ends
        by_cases hhuge : drainedBytes < (content r).length
        · obtain ⟨r', hcall, hr', hleft⟩ := readLineBounded_calm hr
            (by simpa using nextLine_huge hin (Nat.le_of_lt hhuge) [])
          have hless : (content r').length < n := by
            rw [hleft, List.length_drop]
            unfold drainedBytes maxNotifyLineBytes at hhuge ⊢
            omega
          obtain ⟨results, hreads, hsplits⟩ := ih _ hless hr' rfl
          exact ⟨_, .line hcall hreads, .huge_last hin hhuge (hleft ▸ hsplits)⟩
        · have hline : nextLine (content r) = some (lineResult (content r), []) := by
            rw [lineResult_last hin]
            split
            · next hlong => exact nextLine_last_long hin hlong (Nat.not_lt.1 hhuge)
            · next hshort => exact nextLine_last hin hnil (Nat.not_lt.1 hshort)
          obtain ⟨r', hcall, hr', hleft⟩ := readLineBounded_calm hr hline
          obtain ⟨r'', hend⟩ := readLineBounded_eof hr' hleft
          exact ⟨_, .line hcall (.eof hend), .last hin hnil (Nat.not_lt.1 hhuge)⟩

/-- Repeated calls split the stream at its newlines, in whatever chunks it comes, exactly when
every line is drained by one call. -/
theorem reads_lines_iff {r : Reader} (hr : Calm r) : (∃ results, Reads r results) ∧ ∀ results, Reads r results →
    (results = (splitAfter newline (content r)).map lineResult ↔ Drainable (content r)) := by
  obtain ⟨results, hreads, hsplits⟩ := reads_splits hr
  refine ⟨⟨results, hreads⟩, fun results' hreads' => ?_⟩
  obtain rfl := hreads.unique hreads'
  refine ⟨fun heq => ?_, hsplits.intact⟩
  by_contra hd
  have htorn := hsplits.torn hd
  rw [heq, List.length_map] at htorn
  exact Nat.lt_irrefl _ htorn

/-- Two lines in three chunks, the last one without a newline. -/
theorem reads_lines_iff_chunks : Reads [.data [97, newline, 98], .interrupted, .data [99]]
    [.ok [97, newline], .ok [98, 99]] := by
  have hcalm : Calm [.data [97, newline, 98], .interrupted, .data [99]] := by
    intro arrival harrival
    simp only [List.mem_cons, List.not_mem_nil, or_false] at harrival
    rcases harrival with rfl | rfl | rfl
    · exact .inr ⟨_, _, rfl⟩
    · exact .inl rfl
    · exact .inr ⟨_, _, rfl⟩
  obtain ⟨⟨results, hreads⟩, hiff⟩ := reads_lines_iff hcalm
  have hlines := (hiff results hreads).2 (by unfold Drainable; decide)
  rwa [hlines] at hreads

/-- What is left of a line that is not drained is read as a line of its own. -/
theorem reads_torn {a : Bytes} (h : newline ∉ a) (hn : drainedBytes ≤ a.length)
    (hshort : (a.drop drainedBytes).length ≤ maxNotifyLineBytes) : Calm [.data (a ++ [newline])] ∧
      Reads [.data (a ++ [newline])]
        [.error "stream line is oversized", .ok (a.drop drainedBytes ++ [newline])] := by
  have hdrop : newline ∉ a.drop drainedBytes := fun hin => h (List.mem_of_mem_drop hin)
  have hcalm : Calm [.data (a ++ [newline])] := by
    intro arrival harrival
    obtain ⟨b, chunk, hcons⟩ := List.exists_cons_of_ne_nil (List.append_ne_nil_of_right_ne_nil a (List.cons_ne_nil newline []))
    rw [List.mem_singleton.1 harrival, hcons]
    exact .inr ⟨b, chunk, rfl⟩
  have hcontent : content [.data (a ++ [newline])] = a ++ newline :: [] := by simp [Arrival.content]
  obtain ⟨r₁, hcall₁, hcalm₁, hleft₁⟩ := readLineBounded_calm hcalm (hcontent ▸ nextLine_huge h hn [newline])
  have hnext : nextLine (content r₁) = some (.ok (a.drop drainedBytes ++ [newline]), []) := by
    rw [hleft₁]
    exact nextLine_short hdrop hshort []
  obtain ⟨r₂, hcall₂, hcalm₂, hleft₂⟩ := readLineBounded_calm hcalm₁ hnext
  obtain ⟨r₃, hend⟩ := readLineBounded_eof hcalm₂ hleft₂
  exact ⟨hcalm, .line hcall₁ (.line hcall₂ (.eof hend))⟩

/-- A command frame behind an overlong line's bytes. -/
def smuggled : Bytes := Lib.Path.bytes "\x7b\"v\":2,\"cmd\":\x7b\"kind\":\"shutdown\"\x7d\x7d"

/-- The tail of one overlong line is taken for a command frame. -/
theorem line_smuggled : ∃ r, Calm r ∧ Reads r [.error "stream line is oversized", .ok (smuggled ++ [newline])] ∧
    (splitAfter newline (content r)).map lineResult = [.error "stream line is oversized"] := by
  obtain ⟨n, hn⟩ : ∃ n, n = drainedBytes := ⟨_, rfl⟩
  have hsmuggled : newline ∉ smuggled ∧ smuggled.length ≤ maxNotifyLineBytes := by decide +kernel
  have hlength : (List.replicate n (120 : UInt8)).length = drainedBytes := by rw [List.length_replicate, hn]
  have hline : newline ∉ List.replicate n 120 ++ smuggled := by
    rw [List.mem_append, not_or]
    exact ⟨fun hin => absurd (List.eq_of_mem_replicate hin) (by decide), hsmuggled.1⟩
  have htail : (List.replicate n 120 ++ smuggled).drop drainedBytes = smuggled := by
    rw [← hlength, List.drop_left]
  have hlong : drainedBytes ≤ (List.replicate n 120 ++ smuggled).length := by
    rw [List.length_append, hlength]
    exact Nat.le_add_right ..
  obtain ⟨hcalm, hreads⟩ := reads_torn hline hlong (htail.symm ▸ hsmuggled.2)
  rw [htail] at hreads
  refine ⟨_, hcalm, hreads, ?_⟩
  have hcontent : content [.data (List.replicate n 120 ++ smuggled ++ [newline])] =
      (List.replicate n 120 ++ smuggled) ++ newline :: [] := by
    simp [Arrival.content]
  rw [hcontent, splitAfter_break hline, splitAfter_nil, List.map_singleton, lineResult_line, if_pos]
  exact Nat.lt_of_lt_of_le (by decide) hlong

end AtriumPortal.Prompter
