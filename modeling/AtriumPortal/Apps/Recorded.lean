import AtriumPortal.Apps.MimeApps
/-!
# What a recorded default does to the text

The reader of the grouped lists against the edit of `apps/mimeapps.rs`.
`recorded_iff`: the edit keeps the other lines, puts the new default first and
settles, exactly for a content type and an id that the format can hold and a text
that is not dangling.
-/
open AtriumPortal.Lib AtriumPortal.Lib.Text AtriumPortal.Lib.Sections AtriumPortal.Prompter

namespace AtriumPortal.Apps

/-! ## The defaults, as they are read -/

/-- What a line is for the reader, who knows comments and skips some keys. -/
def readerKind (contentType body : List Char) : Kind :=
  match readLine body with
  | .group name => .header (name = defaultGroup)
  | .pair key _ => if key = contentType ∧ key ≠ [] ∧ '[' ∉ key then .entry else .other
  | .other => .other

/-- The ids that a line lists. -/
def idsOf (body : List Char) : List String :=
  match readLine body with
  | .pair _ value => (items isWhitespace ';' value).map String.ofList
  | _ => []

/-- The default ids of a content type in a text. -/
def defaultIds (text : List Char) (contentType : String) : Option (List String) :=
  (groupLines [] [] (lines text)).get "Default Applications" contentType

/-- The lines that are no default entries of the content type. -/
def otherRows (text : List Char) (contentType : String) : List (List Char) :=
  kept (readerKind contentType.toList) false (rows text)

theorem Groups.get_cons (group key : List Char) (ids : List String) (groups : Groups) (name contentType : String) :
    Groups.get (((String.ofList group, String.ofList key), ids) :: groups) name contentType =
      if group = name.toList ∧ key = contentType.toList then some ids else groups.get name contentType := by
  rw [Groups.get, List.lookup_cons]
  by_cases hpair : group = name.toList ∧ key = contentType.toList
  · obtain ⟨rfl, rfl⟩ := hpair
    simp
  · have hne : ((name, contentType) == (String.ofList group, String.ofList key)) = false := by
      rw [beq_eq_false_iff_ne]
      intro h
      obtain ⟨rfl, rfl⟩ := Prod.mk.inj h
      simp at hpair
    rw [hne, if_neg hpair]
    rfl

/-- The last entry of the group counts. -/
theorem groupLines_get (group : List Char) (groups : Groups) (bodies : List (List Char)) (contentType : String) :
    (groupLines group groups bodies).get "Default Applications" contentType =
      ((entries (readerKind contentType.toList) (group = defaultGroup) bodies).getLast?.map idsOf).or
        (groups.get "Default Applications" contentType) := by
  have hdefault : defaultGroup ≠ [] := by decide
  induction bodies generalizing group groups with
  | nil => rfl
  | cons body bodies ih =>
    cases hline : readLine body with
    | group name =>
      have hkind : readerKind contentType.toList body = .header (name = defaultGroup) := by rw [readerKind, hline]
      simp only [groupLines, hline, entries, hkind, ih]
    | other =>
      have hkind : readerKind contentType.toList body = .other := by rw [readerKind, hline]
      simp only [groupLines, hline, entries, hkind, ih]
    | pair key value =>
      have hkind : readerKind contentType.toList body =
          if key = contentType.toList ∧ key ≠ [] ∧ '[' ∉ key then .entry else .other := by rw [readerKind, hline]
      have hids : idsOf body = (items isWhitespace ';' value).map String.ofList := by rw [idsOf, hline]
      simp only [groupLines, hline]
      -- a pair of another key is stored too, and is not looked up
      by_cases hkey : key = contentType.toList ∧ key ≠ [] ∧ '[' ∉ key
      · simp only [entries, hkind, if_pos hkey]
        by_cases hin : group = defaultGroup
        · have hread : ¬ (group = [] ∨ key = [] ∨ '[' ∈ key) := by
            simp only [hin, hdefault, hkey.2, or_false, not_false_eq_true]
          rw [if_neg hread, ih, Groups.get_cons, if_pos ⟨hin, hkey.1⟩, ← hids]
          simp only [hin, decide_true, if_true, List.getLast?_cons]
          cases (entries (readerKind contentType.toList) true bodies).getLast? <;> rfl
        · simp only [hin, decide_false, Bool.false_eq_true, if_false]
          split
          · rw [ih, decide_eq_false hin]
          · rw [ih, Groups.get_cons, if_neg fun h => hin h.1, decide_eq_false hin]
      · simp only [entries, hkind, if_neg hkey]
        split
        · exact ih group groups
        · next hread =>
          simp only [not_or] at hread
          rw [ih, Groups.get_cons, if_neg fun h => hkey ⟨h.2, hread.2⟩]

theorem readLine_chomp (body : List Char) : readLine (chomp body) = readLine body := by
  have htrim : trimEnd isWhitespace (chomp body) = trimEnd isWhitespace body := by
    unfold chomp
    split
    · next hlast =>
      obtain ⟨front, rfl⟩ := List.getLast?_eq_some_iff.1 hlast
      rw [List.dropLast_concat, trimEnd, trimEnd, List.rdropWhile_concat_pos _ _ _ (by decide)]
    · rfl
  simp only [readLine, htrim]

/-- The reader's lines and the edit's read the same. -/
theorem groupLines_rows (group : List Char) (groups : Groups) (text : List Char) :
    groupLines group groups (lines text) = groupLines group groups (rows text) := by
  obtain ⟨rs, last, rfl, hrows, hlast⟩ := unlines_rest text
  rw [lines_unlines_rest hrows hlast, rows_unlines hrows hlast]
  clear hrows
  induction rs generalizing group groups with
  | nil => rfl
  | cons r rs ih =>
    rw [List.map_cons, List.cons_append, List.cons_append, groupLines, groupLines, readLine_chomp]
    cases readLine r with
    | group name => exact ih name groups
    | other => exact ih group groups
    | pair key value =>
      dsimp only
      split
      · exact ih group groups
      · exact ih group _

theorem defaultIds_eq (text : List Char) (contentType : String) :
    defaultIds text contentType = (entries (readerKind contentType.toList) false (rows text)).getLast?.map idsOf := by
  rw [defaultIds, groupLines_rows, groupLines_get]
  exact Option.or_none

/-! ## The reader's entries and the edit's -/

theorem readLine_header (body : List Char) : readLine body =
    match headerOf body with
    | some name => .group name
    | none =>
      if (trimEnd isWhitespace body).head? = some '#' then .other
      else match splitOnce '=' body with
        | some (key, value) => .pair (trim isWhitespace key) (trimEnd isWhitespace value)
        | none => .other := by
  unfold readLine headerOf
  cases bracketed (trimEnd isWhitespace body) with
  | some name => rfl
  | none =>
    rw [splitOnce_trimEnd (by decide)]
    cases splitOnce '=' body <;> rfl

/-- A line as the reader takes it, by its header, its first character and its key. -/
theorem readerKind_eq_match (contentType body : List Char) : readerKind contentType body =
    match headerOf body with
    | some name => .header (name = defaultGroup)
    | none =>
      if (trimEnd isWhitespace body).head? = some '#' then .other
      else match splitOnce '=' body with
        | some (key, _) =>
          if trim isWhitespace key = contentType ∧ trim isWhitespace key ≠ [] ∧ '[' ∉ trim isWhitespace key then .entry
          else .other
        | none => .other := by
  rw [readerKind, readLine_header]
  cases headerOf body with
  | some name => rfl
  | none =>
    by_cases hcomment : (trimEnd isWhitespace body).head? = some '#'
    · rw [if_pos hcomment, if_pos hcomment]
    · rw [if_neg hcomment, if_neg hcomment]
      cases splitOnce '=' body <;> rfl

theorem readerKind_header (contentType body : List Char) (goal : Bool) :
    readerKind contentType body = .header goal ↔ lineKind contentType body = .header goal := by
  rw [lineKind_header_iff, readerKind_eq_match]
  cases headerOf body with
  | some name => simp
  | none =>
    dsimp only
    split
    · simp
    · split
      · split <;> simp
      · simp

theorem readerKind_entry_iff {contentType body : List Char} : readerKind contentType body = .entry ↔
    headerOf body = none ∧ (trimEnd isWhitespace body).head? ≠ some '#' ∧
      ∃ key value, splitOnce '=' body = some (key, value) ∧ trim isWhitespace key = contentType ∧
        contentType ≠ [] ∧ '[' ∉ contentType := by
  rw [readerKind_eq_match]
  cases headerOf body with
  | some name => simp
  | none =>
    by_cases hcomment : (trimEnd isWhitespace body).head? = some '#'
    · simp [hcomment]
    · cases splitOnce '=' body with
      | none => simp
      | some pair =>
        obtain ⟨key, value⟩ := pair
        by_cases hkey : trim isWhitespace key = contentType
        · subst hkey
          simp [hcomment]
        · simp [hkey]

/-- What the reader takes for an entry the edit does, too. -/
theorem readerKind_entry {contentType body : List Char} (h : readerKind contentType body = .entry) :
    lineKind contentType body = .entry := by
  obtain ⟨hheader, -, key, value, hsplit, hkey, -, -⟩ := readerKind_entry_iff.1 h
  exact lineKind_entry_iff.2 ⟨hheader, key, value, hsplit, hkey⟩

/-- A content type that can be a key. -/
structure KeyType (contentType : String) : Prop where
  noEquals : '=' ∉ contentType.toList
  noBracket : '[' ∉ contentType.toList
  trimmed : trim isWhitespace contentType.toList = contentType.toList

/-- A content type that can be a key at the start of a line. -/
structure PlainType (contentType : String) : Prop extends KeyType contentType where
  noComment : contentType.toList.head? ≠ some '#'

/-- An id that can be an item. -/
structure PlainId (desktopId : String) : Prop where
  noSeparator : ';' ∉ desktopId.toList
  trimmed : trim isWhitespace desktopId.toList = desktopId.toList

/-- Reader and edit agree on the entries of a plain content type. -/
theorem readerKind_eq {contentType : String} (h : PlainType contentType) (hne : contentType.toList ≠ []) :
    readerKind contentType.toList = lineKind contentType.toList := by
  funext body
  cases hline : lineKind contentType.toList body with
  | header goal => exact (readerKind_header _ _ _).2 hline
  | other =>
    cases hread : readerKind contentType.toList body with
    | header goal =>
      rw [(readerKind_header _ _ _).1 hread] at hline
      cases hline
    | entry =>
      rw [readerKind_entry hread] at hline
      cases hline
    | other => rfl
  | entry =>
    obtain ⟨hheader, key, value, hsplit, hkey⟩ := lineKind_entry_iff.1 hline
    obtain ⟨hbody, -⟩ := splitOnce_eq_some hsplit
    -- a comment's key starts with the sign, and so would the content type
    have hcomment : (trimEnd isWhitespace body).head? ≠ some '#' := by
      rw [hbody, trimEnd_append (by decide)]
      cases key with
      | nil => simp
      | cons c rest =>
        rw [List.cons_append, List.head?_cons]
        rintro ⟨⟩
        refine h.noComment ?_
        rw [← hkey, trim, List.dropWhile_cons_of_neg (by decide)]
        exact congrArg List.head? (trimEnd_append (by decide) [] rest)
    exact readerKind_entry_iff.2 ⟨hheader, hcomment, key, value, hsplit, hkey, hne, h.noBracket⟩

theorem splitOnce_row {contentType : List Char} (h : '=' ∉ contentType) (value : List Char) :
    splitOnce '=' (row contentType value) = some (contentType, value ++ [';']) := by
  rw [row, List.append_assoc, List.cons_append]
  exact splitOnce_append h _

/-- What ends in a semicolon is no header. -/
theorem headerOf_semicolon (body : List Char) : headerOf (body ++ [';']) = none := by
  have htrim : trimEnd isWhitespace (body ++ [';']) = body ++ [';'] :=
    trimEnd_eq_self fun c hc => by
      rw [List.getLast?_concat] at hc
      cases hc
      decide
  rw [headerOf, htrim]
  cases body with
  | nil => rfl
  | cons c rest =>
    have hlast : (rest ++ [';']).getLast? ≠ some ']' := by
      rw [List.getLast?_concat]
      decide
    rw [List.cons_append]
    unfold bracketed
    split
    · next heq =>
      obtain ⟨-, rfl⟩ := List.cons.inj heq
      rw [if_neg hlast]
      rfl
    · rfl

theorem headerOf_row (contentType value : List Char) : headerOf (row contentType value) = none := headerOf_semicolon _

/-- A row that the reader takes for an entry of its content type makes the content type plain. -/
theorem plainType_of_row {contentType : String} {value : List Char} (hne : contentType.toList ≠ [])
    (h : readerKind contentType.toList (row contentType.toList value) = .entry) : PlainType contentType := by
  obtain ⟨-, hcomment, key, found, hsplit, hkey, -, hbracket⟩ := readerKind_entry_iff.1 h
  obtain ⟨-, hequals⟩ := splitOnce_eq_some hsplit
  have hnoEquals : '=' ∉ contentType.toList := fun hin => hequals (trim_subset key (hkey ▸ hin))
  obtain ⟨rfl, -⟩ : key = contentType.toList ∧ found = value ++ [';'] := by
    simpa using hsplit.symm.trans (splitOnce_row hnoEquals value)
  refine ⟨⟨hnoEquals, hbracket, hkey⟩, fun hhead => hcomment ?_⟩
  obtain ⟨c, rest, hcons⟩ := List.exists_cons_of_ne_nil hne
  rw [hcons] at hhead ⊢
  cases hhead
  exact congrArg List.head? (trimEnd_append (by decide) [] (rest ++ '=' :: value ++ [';']))

/-! ## What is written -/

section

variable {contentType desktopId : List Char}

theorem lineKind_row (h : '=' ∉ contentType) (htrim : trim isWhitespace contentType = contentType) (value : List Char) :
    lineKind contentType (row contentType value) = .entry :=
  lineKind_entry_iff.2 ⟨headerOf_row _ _, contentType, value ++ [';'], splitOnce_row h value, htrim⟩

theorem valueOf_row (h : '=' ∉ contentType) (value : List Char) : valueOf (row contentType value) = value ++ [';'] := by
  rw [valueOf, splitOnce_row h]

/-- The list that a value with fallbacks holds. -/
theorem items_withFallbacks (desktopId existing : List Char) :
    items isWhitespace ';' (withFallbacks desktopId existing ++ [';']) =
      items isWhitespace ';' desktopId ++ (items isWhitespace ';' existing).filter (· ≠ desktopId) := by
  have hsingle : ∀ l : List (List Char), (∀ item ∈ l, item ∈ items isWhitespace ';' existing) →
      l.flatMap (items isWhitespace ';') = l := by
    intro l h
    induction l with
    | nil => rfl
    | cons item l ih =>
      rw [List.forall_mem_cons] at h
      obtain ⟨hne, hsep, htrim, -⟩ := mem_items h.1
      rw [List.flatMap_cons, items_single hsep htrim hne, ih h.2]
      rfl
  rw [withFallbacks, intercalate_concat, items_flatMap, List.flatMap_cons,
    hsingle _ fun item hitem => (List.mem_filter.1 hitem).1]

theorem rewriteRow_items (h : '=' ∉ contentType) (body : List Char) :
    items isWhitespace ';' (valueOf (rewriteRow contentType desktopId body)) =
      items isWhitespace ';' desktopId ++ (items isWhitespace ';' (valueOf body)).filter (· ≠ desktopId) := by
  rw [rewriteRow, valueOf_row h, items_withFallbacks]

theorem fresh_items (h : '=' ∉ contentType) :
    items isWhitespace ';' (valueOf (row contentType desktopId)) = items isWhitespace ';' desktopId := by
  rw [valueOf_row h, items_append_sep, items_nil, List.append_nil]

/-- Rewriting an id that is an item settles. -/
theorem rewriteRow_settled (h : '=' ∉ contentType) (hid : items isWhitespace ';' desktopId = [desktopId]) (body : List Char) :
    rewriteRow contentType desktopId (rewriteRow contentType desktopId body) = rewriteRow contentType desktopId body ∧
      rewriteRow contentType desktopId (row contentType desktopId) = row contentType desktopId := by
  have hsame : ∀ body' : List Char, (items isWhitespace ';' (valueOf body')).filter (· ≠ desktopId) =
      (items isWhitespace ';' (valueOf body)).filter (· ≠ desktopId) →
      rewriteRow contentType desktopId body' = rewriteRow contentType desktopId body := by
    intro body' heq
    rw [rewriteRow, rewriteRow, withFallbacks, withFallbacks, heq]
  constructor
  · refine hsame _ ?_
    rw [rewriteRow_items h, hid]
    simp
  · have hnone : (items isWhitespace ';' (valueOf (row contentType desktopId))).filter (· ≠ desktopId) = [] := by
      rw [fresh_items h, hid]
      simp
    rw [rewriteRow, withFallbacks, hnone]
    simp

theorem lineKind_opening (contentType : List Char) : lineKind contentType "[Default Applications]".toList = .header true := by
  have hheader : headerOf "[Default Applications]".toList = some defaultGroup := by decide
  rw [lineKind, hheader]
  rfl

theorem laws_row (h : '=' ∉ contentType) (htrim : trim isWhitespace contentType = contentType) :
    Laws (lineKind contentType) (rewriteRow contentType desktopId) (row contentType desktopId)
      "[Default Applications]".toList [] where
  fresh_entry := lineKind_row h htrim _
  opening_header := lineKind_opening contentType
  blank_other := rfl
  rewrite_entry := fun _ _ => lineKind_row h htrim _

/-- An entry's ids. -/
theorem idsOf_entry {body : List Char} (h : readerKind contentType body = .entry) :
    idsOf body = (items isWhitespace ';' (valueOf body)).map String.ofList := by
  have hsep : isWhitespace ';' = false := by decide
  obtain ⟨hheader, hcomment, key, value, hsplit, -, -, -⟩ := readerKind_entry_iff.1 h
  rw [idsOf, readLine_header, hheader, hsplit, valueOf, hsplit]
  dsimp only
  rw [if_neg hcomment]
  dsimp only
  rw [items_trimEnd hsep]

end

/-! ## The edit as the reader sees it -/

theorem rows_noNewline (text : List Char) : ∀ r ∈ rows text, '\n' ∉ r := by
  obtain ⟨rs, last, rfl, hrows, hlast⟩ := unlines_rest text
  rw [rows_unlines hrows hlast]
  refine List.forall_mem_append.2 ⟨hrows, ?_⟩
  split
  · nofun
  · exact List.forall_mem_singleton.2 hlast

theorem rows_closed {bodies : List (List Char)} (h : ∀ r ∈ bodies, '\n' ∉ r) : rows (unlines bodies) = bodies := by
  have hrows := rows_unlines h (List.not_mem_nil : '\n' ∉ ([] : List Char))
  rwa [List.append_nil, if_pos rfl, List.append_nil] at hrows

theorem row_noNewline {contentType value : List Char} (h : '\n' ∉ contentType) (hvalue : '\n' ∉ value) :
    '\n' ∉ row contentType value := by
  simp [row, h, hvalue]

theorem valid_noNewline {contentType : String} (h : validContentType contentType = true) :
    '\n' ∉ contentType.toList ∧ contentType.toList ≠ [] := by
  unfold validContentType at h
  split at h
  · next kind subtype hsplit =>
    refine ⟨(of_decide_eq_true h).2.2.1, fun hnil => ?_⟩
    rw [hnil, List.splitOn_eq_singleton List.not_mem_nil] at hsplit
    cases hsplit
  · cases h

theorem validId_noNewline {desktopId : String} (h : validDesktopId desktopId = true) :
    '\n' ∉ desktopId.toList ∧ desktopId.toList ≠ [] := by
  obtain ⟨hne, -, -, -, -, hline⟩ := of_decide_eq_true h
  exact ⟨hline, fun hnil => hne (String.toList_inj.1 hnil)⟩

theorem setRows_noNewline {contentType desktopId : List Char} (hct : '\n' ∉ contentType) (hid : '\n' ∉ desktopId)
    {bodies : List (List Char)} (h : ∀ r ∈ bodies, '\n' ∉ r) : ∀ r ∈ setRows contentType desktopId bodies, '\n' ∉ r := by
  have hvalue : ∀ body : List Char, '\n' ∉ body → '\n' ∉ valueOf body := by
    intro body hbody hin
    unfold valueOf at hin
    split at hin
    · next hsplit =>
      rw [(splitOnce_eq_some hsplit).1] at hbody
      exact hbody (List.mem_append_right _ (List.mem_cons_of_mem _ hin))
    · cases hin
  have hsubset : ∀ value : List Char, '\n' ∉ value → '\n' ∉ withFallbacks desktopId value := by
    intro value hv hin
    have hitem : ∀ item ∈ desktopId :: (items isWhitespace ';' value).filter (· ≠ desktopId), '\n' ∉ item := by
      refine List.forall_mem_cons.2 ⟨hid, fun item hitem hnl => hv ?_⟩
      exact (mem_items (List.mem_filter.1 hitem).1).2.2.2 hnl
    have hin := (intercalate_concat ';' desktopId _) ▸ List.mem_append_left [';'] hin
    obtain ⟨item, hmem, hnl⟩ := List.mem_flatMap.1 hin
    rcases List.mem_append.1 hnl with hnl | hnl
    · exact hitem item hmem hnl
    · exact absurd (List.mem_singleton.1 hnl) (by decide)
  have hrewrite : ∀ body : List Char, '\n' ∉ body → '\n' ∉ rewriteRow contentType desktopId body :=
    fun body hbody => row_noNewline hct (hsubset _ (hvalue body hbody))
  exact forall_setKey (P := fun r => '\n' ∉ r) (row_noNewline hct hid) hrewrite (by decide) List.not_mem_nil h

/-- A group that is open to the edit is open to the reader. -/
theorem Dangling.open_read {text : List Char} {contentType : String} (h : Dangling text contentType) :
    Open (readerKind contentType.toList) (rows text) :=
  h.2.2.stricter (readerKind_header _) fun _ => readerKind_entry

theorem dangling_closed (bodies : List (List Char)) (contentType : String) : ¬ Dangling (unlines bodies) contentType :=
  fun h => closed_end bodies ⟨h.1, h.2.1⟩

section

variable {text : List Char} {contentType desktopId : String} (hct : validContentType contentType = true)
  (hid : validDesktopId desktopId = true)

include hct hid

theorem rows_update (h : ¬ Dangling text contentType) :
    rows (updateDefaultApplications text contentType desktopId) = setRows contentType.toList desktopId.toList (rows text) := by
  rw [update_eq h]
  exact rows_closed (setRows_noNewline (valid_noNewline hct).1 (validId_noNewline hid).1 (rows_noNewline text))

/-- The lines of a dangling text with the key behind the last one. -/
theorem rows_update_open (h : Dangling text contentType) : ∃ rs last, text = unlines rs ++ last ∧ last ≠ [] ∧
    rows text = rs ++ [last] ∧
    updateDefaultApplications text contentType desktopId =
      unlines (rs ++ [last ++ row contentType.toList desktopId.toList]) ∧
    rows (updateDefaultApplications text contentType desktopId) =
      rs ++ [last ++ row contentType.toList desktopId.toList] := by
  obtain ⟨rs, last, htext, hne, hrows, hupdate⟩ := update_open h desktopId
  have hnl := rows_noNewline text
  rw [hrows, List.forall_mem_append, List.forall_mem_singleton] at hnl
  refine ⟨rs, last, htext, hne, hrows, hupdate, ?_⟩
  rw [hupdate]
  refine rows_closed (List.forall_mem_append.2 ⟨hnl.1, List.forall_mem_singleton.2 fun hin => ?_⟩)
  exact (List.mem_append.1 hin).elim hnl.2 (row_noNewline (valid_noNewline hct).1 (validId_noNewline hid).1)

/-- Only a plain content type has entries after the edit. -/
theorem plainType_of_read (h : ¬ Dangling text contentType) {ids : List String}
    (hread : defaultIds (updateDefaultApplications text contentType desktopId) contentType = some ids) :
    PlainType contentType := by
  rw [defaultIds_eq, rows_update hct hid h, Option.map_eq_some_iff] at hread
  obtain ⟨body, hbody, -⟩ := hread
  have hentry := List.mem_of_mem_getLast? hbody
  have hlaw : ∀ value goal, lineKind contentType.toList (row contentType.toList value) ≠ .header goal := by
    intro value goal
    rw [lineKind, headerOf_row]
    dsimp only
    split
    · split <;> nofun
    · nofun
  have hwritten := entries_setKey_written (lineKind_opening _) rfl (hlaw _) (fun _ _ => hlaw _) body
    (entries_of_stricter (readerKind_header contentType.toList) (fun _ => readerKind_entry) body hentry)
  obtain ⟨value, rfl⟩ : ∃ value, body = row contentType.toList value := by
    rcases hwritten with h | ⟨a, -, h⟩
    · exact ⟨_, h⟩
    · exact ⟨_, h⟩
  exact plainType_of_row (valid_noNewline hct).2 (entries_kind hentry)

/-- For a plain content type the ids of the new default come before the others. -/
theorem defaultIds_update (hplain : PlainType contentType) (h : ¬ Dangling text contentType) :
    defaultIds (updateDefaultApplications text contentType desktopId) contentType =
      some ((items isWhitespace ';' desktopId.toList).map String.ofList ++
        ((defaultIds text contentType).getD []).filter (· ≠ desktopId)) := by
  have hkind := readerKind_eq hplain (valid_noNewline hct).2
  have hlaws := @laws_row contentType.toList desktopId.toList hplain.noEquals hplain.trimmed
  have hids : ∀ body, lineKind contentType.toList body = .entry →
      idsOf body = (items isWhitespace ';' (valueOf body)).map String.ofList :=
    fun body hbody => idsOf_entry (by rwa [hkind])
  have hfilter : ∀ l : List (List Char), (l.filter (· ≠ desktopId.toList)).map String.ofList =
      (l.map String.ofList).filter (· ≠ desktopId) := by
    intro l
    rw [List.filter_map]
    refine congrArg (List.map String.ofList) (List.filter_congr fun item _ => ?_)
    have hiff : item = desktopId.toList ↔ String.ofList item = desktopId := by
      rw [← String.toList_inj, String.toList_ofList]
    simp [hiff]
  rw [defaultIds_eq, defaultIds_eq, rows_update hct hid h, hkind, setRows, last_setKey hlaws, Option.map_some]
  cases hlast : (entries (lineKind contentType.toList) false (rows text)).getLast? with
  | none =>
    rw [Option.map_none, Option.getD_none, Option.map_none, Option.getD_none, List.filter_nil, List.append_nil,
      hids _ hlaws.fresh_entry, fresh_items hplain.noEquals]
  | some body =>
    have hbody : lineKind contentType.toList body = .entry := entries_kind (List.mem_of_mem_getLast? hlast)
    rw [Option.map_some, Option.getD_some, Option.map_some, Option.getD_some, hids _ (hlaws.rewrite_entry body hbody),
      rewriteRow_items hplain.noEquals, List.map_append, hfilter, hids body hbody]

end

/-! ## Recording a default -/

/-- The edit keeps every line that is no default entry of the content type, puts the new default before the
other ids, and changes nothing the second time. -/
structure Recorded (text : List Char) (contentType desktopId : String) : Prop where
  kept : otherRows text contentType <+: otherRows (updateDefaultApplications text contentType desktopId) contentType
  first : defaultIds (updateDefaultApplications text contentType desktopId) contentType =
    some (desktopId :: ((defaultIds text contentType).getD []).filter (· ≠ desktopId))
  settled : updateDefaultApplications (updateDefaultApplications text contentType desktopId) contentType desktopId =
    updateDefaultApplications text contentType desktopId

section

variable {text : List Char} {contentType desktopId : String} (hct : validContentType contentType = true)
  (hid : validDesktopId desktopId = true)

include hct hid

/-- Behind a dangling line the key damages it. -/
theorem Recorded.not_dangling (h : Recorded text contentType desktopId) : ¬ Dangling text contentType := by
  intro hdangling
  obtain ⟨rs, last, -, -, hrows, -, hresult⟩ := rows_update_open hct hid hdangling
  have hkept := h.kept
  unfold otherRows at hkept
  rw [kept_eq_self (hdangling.open_read).entries, hrows, hresult] at hkept
  -- as many lines, so they would be the same lines
  have hsub := hkept.sublist.trans (kept_sublist _ _)
  have heq := hsub.eq_of_length (by simp)
  simp [row] at heq

/-- Only a plain content type is read back. -/
theorem Recorded.plainType (h : Recorded text contentType desktopId) : PlainType contentType :=
  plainType_of_read hct hid (h.not_dangling hct hid) h.first

/-- Only a plain id is read back. -/
theorem Recorded.plainId (h : Recorded text contentType desktopId) : PlainId desktopId := by
  have hfirst := h.first
  rw [defaultIds_update hct hid (h.plainType hct hid) (h.not_dangling hct hid), Option.some.injEq, ← List.singleton_append,
    List.append_cancel_right_eq] at hfirst
  obtain ⟨item, hitems, hitem⟩ := List.map_eq_singleton_iff.1 hfirst
  obtain ⟨-, hsep, htrim, -⟩ := mem_items (hitems ▸ List.mem_singleton_self item)
  rw [← hitem]
  exact ⟨by rwa [String.toList_ofList], by rwa [String.toList_ofList]⟩

/-- Recording a default works exactly for a plain content type, a plain id and a text that is not dangling. -/
theorem recorded_iff : Recorded text contentType desktopId ↔
    PlainType contentType ∧ PlainId desktopId ∧ ¬ Dangling text contentType := by
  constructor
  · exact fun h => ⟨h.plainType hct hid, h.plainId hct hid, h.not_dangling hct hid⟩
  · rintro ⟨hplain, hplainId, hdangling⟩
    have hitems : items isWhitespace ';' desktopId.toList = [desktopId.toList] :=
      items_single hplainId.noSeparator hplainId.trimmed (validId_noNewline hid).2
    have hlaws := @laws_row contentType.toList desktopId.toList hplain.noEquals hplain.trimmed
    have hsettled := @rewriteRow_settled contentType.toList desktopId.toList hplain.noEquals hitems
    refine ⟨?_, ?_, ?_⟩
    · unfold otherRows
      rw [rows_update hct hid hdangling, readerKind_eq hplain (valid_noNewline hct).2]
      exact kept_setKey hlaws (rows text)
    · rw [defaultIds_update hct hid hplain hdangling, hitems]
      simp
    · have hclosed : ¬ Dangling (updateDefaultApplications text contentType desktopId) contentType := by
        rw [update_eq hdangling]
        exact dangling_closed _ _
      rw [update_eq hclosed, rows_update hct hid hdangling, update_eq hdangling]
      exact congrArg unlines (setKey_setKey hlaws (hsettled []).2 (fun body _ => (hsettled body).1) (rows text))

end

theorem plainType_plain : PlainType "text/plain" := ⟨⟨by decide, by decide, by decide⟩, by decide⟩

theorem recorded_iff_plain :
    Recorded "[Default Applications]\ntext/plain=editor.desktop;\n".toList "text/plain" "writer.desktop" :=
  (recorded_iff (by decide +kernel) (by decide +kernel)).2
    ⟨plainType_plain, ⟨by decide, by decide⟩, fun h => h.2.1 (by decide)⟩

/-- The key is written behind an entry whose line is not terminated. -/
theorem default_appended : validContentType "text/plain" = true ∧ validDesktopId "editor.desktop" = true ∧
    updateDefaultApplications "[Default Applications]\ntext/html=browser.desktop".toList "text/plain" "editor.desktop" =
      "[Default Applications]\ntext/html=browser.desktoptext/plain=editor.desktop;\n".toList ∧
    ¬ Recorded "[Default Applications]\ntext/html=browser.desktop".toList "text/plain" "editor.desktop" := by
  have hupdate : updateDefaultApplications "[Default Applications]\ntext/html=browser.desktop".toList "text/plain"
      "editor.desktop" = "[Default Applications]\ntext/html=browser.desktoptext/plain=editor.desktop;\n".toList := by
    decide +kernel
  refine ⟨by decide +kernel, by decide +kernel, hupdate, fun h => ?_⟩
  have hkept := h.kept
  rw [hupdate] at hkept
  revert hkept
  decide +kernel

end AtriumPortal.Apps
