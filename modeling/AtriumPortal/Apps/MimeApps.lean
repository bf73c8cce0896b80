import AtriumPortal.Apps.Desktop
import AtriumPortal.Lib.Sections
/-!
# Recording a default application

`apps/mimeapps.rs`: the edit of a `mimeapps.list` text that sets the default of one
content type. It is `Sections.setKey` on the text's lines, unless the text ends
unterminated in an open group: `update_eq`, `update_open`.
-/
open AtriumPortal.Lib AtriumPortal.Lib.Text AtriumPortal.Lib.Sections AtriumPortal.Prompter

namespace AtriumPortal.Apps

def defaultGroup : List Char := "Default Applications".toList

/-! ## The edit -/

/-- The name of the group that a line opens. -/
def headerOf (body : List Char) : Option (List Char) :=
  (bracketed (trimEnd isWhitespace body)).map (trim isWhitespace)

def keyLine (contentType id : List Char) : List Char := contentType ++ '=' :: id ++ [';', '\n']

/-- The new default, and the ids of the existing value behind it. -/
def withFallbacks (desktopId existing : List Char) : List Char :=
  [';'].intercalate (desktopId :: (items isWhitespace ';' existing).filter (· ≠ desktopId))

structure Update where
  inDefaults : Bool
  seenGroup : Bool
  wroteKey : Bool
  out : List (List Char)

namespace Update

variable (contentType desktopId : List Char)

/-- Leaving the group without having seen the key: append it. -/
def leave (u : Update) : Update :=
  if u.inDefaults && !u.wroteKey then { u with wroteKey := true, out := u.out ++ [keyLine contentType desktopId] } else u

def line (u : Update) (line : List Char) : Update :=
  match headerOf (stripNewline line) with
  | some name =>
    let u := u.leave contentType desktopId
    { u with
      inDefaults := name = defaultGroup
      seenGroup := u.seenGroup || name = defaultGroup
      out := u.out ++ [line] }
  | none =>
    match splitOnce '=' (stripNewline line) with
    | some (key, existing) =>
      if u.inDefaults && trim isWhitespace key = contentType then
        { u with wroteKey := true, out := u.out ++ [keyLine contentType (withFallbacks desktopId existing)] }
      else { u with out := u.out ++ [line] }
    | none => { u with out := u.out ++ [line] }

/-- The last line with its line feed. -/
def closeLast (out : List (List Char)) : List (List Char) :=
  match out.getLast? with
  | some last => if last.getLast? = some '\n' then out else out.dropLast ++ [last ++ ['\n']]
  | none => out

/-- The text, with the whole group when none was seen. -/
def result (u : Update) : List Char :=
  let out := if u.seenGroup then u.out
    else closeLast u.out ++ ((if u.out = [] then [] else [['\n']]) ++
      ["[Default Applications]\n".toList, keyLine contentType desktopId])
  if out.flatten ≠ [] ∧ out.flatten.getLast? ≠ some '\n' then out.flatten ++ ['\n'] else out.flatten

end Update

def Update.start : Update := ⟨false, false, false, []⟩

/-- The file may end inside the group without the key. -/
def Update.finish (contentType desktopId : List Char) (u : Update) : List Char :=
  (u.leave contentType desktopId).result contentType desktopId

def updateDefaultApplications (text : List Char) (contentType desktopId : String) : List Char :=
  ((Lines.splitAfter '\n' text).foldl (Update.line contentType.toList desktopId.toList) .start).finish
    contentType.toList desktopId.toList

/-! ## The edit on lines -/

/-- What a line is for the edit. -/
def lineKind (contentType body : List Char) : Kind :=
  match headerOf body with
  | some name => .header (name = defaultGroup)
  | none =>
    match splitOnce '=' body with
    | some (key, _) => if trim isWhitespace key = contentType then .entry else .other
    | none => .other

def valueOf (body : List Char) : List Char :=
  match splitOnce '=' body with
  | some (_, value) => value
  | none => []

def row (contentType value : List Char) : List Char := contentType ++ '=' :: value ++ [';']

def rewriteRow (contentType desktopId body : List Char) : List Char :=
  row contentType (withFallbacks desktopId (valueOf body))

theorem lineKind_header_iff {contentType body : List Char} {goal : Bool} : lineKind contentType body = .header goal ↔
    ∃ name, headerOf body = some name ∧ decide (name = defaultGroup) = goal := by
  unfold lineKind
  cases headerOf body with
  | some name => simp
  | none =>
    cases splitOnce '=' body with
    | none => simp
    | some pair =>
      dsimp only
      split <;> simp

theorem lineKind_entry_iff {contentType body : List Char} : lineKind contentType body = .entry ↔
    headerOf body = none ∧ ∃ key value, splitOnce '=' body = some (key, value) ∧ trim isWhitespace key = contentType := by
  unfold lineKind
  cases headerOf body with
  | some name => simp
  | none =>
    cases splitOnce '=' body with
    | none => simp
    | some pair =>
      obtain ⟨key, value⟩ := pair
      by_cases hkey : trim isWhitespace key = contentType <;> simp [hkey]

/-- The lines with the default set. -/
def setRows (contentType desktopId : List Char) : List (List Char) → List (List Char) :=
  setKey (lineKind contentType) (rewriteRow contentType desktopId) (row contentType desktopId) "[Default Applications]".toList []

section

variable (contentType desktopId : List Char)

theorem keyLine_eq (value : List Char) : keyLine contentType value = row contentType value ++ ['\n'] := by
  simp [keyLine, row]

theorem stripNewline_closed (body : List Char) : stripNewline (body ++ ['\n']) = body := by
  simp [stripNewline]

theorem Update.leave_shut {u : Update} (h : (u.inDefaults && !u.wroteKey) = false) : u.leave contentType desktopId = u :=
  if_neg (ne_true_of_eq_false h)

/-- One closed line, by what it is. -/
theorem Update.line_closed (u : Update) (body : List Char) : u.line contentType desktopId (body ++ ['\n']) =
    match lineKind contentType body with
    | .header goal =>
      ⟨goal, u.seenGroup || goal, u.wroteKey || u.inDefaults, (u.leave contentType desktopId).out ++ [body ++ ['\n']]⟩
    | .entry =>
      if u.inDefaults then { u with wroteKey := true, out := u.out ++ [rewriteRow contentType desktopId body ++ ['\n']] }
      else { u with out := u.out ++ [body ++ ['\n']] }
    | .other => { u with out := u.out ++ [body ++ ['\n']] } := by
  have hleave : (u.leave contentType desktopId).wroteKey = (u.wroteKey || u.inDefaults) ∧
      (u.leave contentType desktopId).seenGroup = u.seenGroup := by
    unfold Update.leave
    split
    · next h => exact ⟨by simp [(Bool.and_eq_true_iff.1 h).1], rfl⟩
    · next h =>
      refine ⟨?_, rfl⟩
      cases hin : u.inDefaults <;> simp_all
  rw [Update.line, stripNewline_closed]
  unfold lineKind
  cases headerOf body with
  | some name => simp only [hleave]
  | none =>
    cases hsplit : splitOnce '=' body with
    | none => rfl
    | some pair =>
      dsimp only
      by_cases hkey : trim isWhitespace pair.1 = contentType
      · have hvalue : valueOf body = pair.2 := by rw [valueOf, hsplit]
        simp only [hkey, decide_true, Bool.and_true, if_true, rewriteRow, hvalue, keyLine_eq]
      · simp only [hkey, decide_false, Bool.and_false, Bool.false_eq_true, if_false]

/-- Closed lines are edited as `edit` says. -/
theorem Update.foldl_closed (u : Update) (bodies : List (List Char)) :
    let v := (bodies.map (· ++ ['\n'])).foldl (Update.line contentType desktopId) u
    (v.leave contentType desktopId).out = u.out ++ (edit (lineKind contentType) (rewriteRow contentType desktopId)
        (row contentType desktopId) u.inDefaults u.wroteKey bodies).map (· ++ ['\n']) ∧
      (v.seenGroup = true ↔ u.seenGroup = true ∨ HasGoal (lineKind contentType) bodies) ∧
      (v.inDefaults && !v.wroteKey) = openAfter (lineKind contentType) u.inDefaults u.wroteKey bodies := by
  induction bodies generalizing u with
  | nil =>
    refine ⟨?_, by simp [HasGoal], rfl⟩
    show (u.leave contentType desktopId).out = _
    rw [Update.leave, edit]
    split
    · rw [keyLine_eq]
      rfl
    · rw [List.map_nil, List.append_nil]
  | cons body bodies ih =>
    obtain ⟨hout, hseen, hopen⟩ := ih (u.line contentType desktopId (body ++ ['\n']))
    rw [List.map_cons, List.foldl_cons]
    have hgoal : HasGoal (lineKind contentType) (body :: bodies) ↔
        lineKind contentType body = .header true ∨ HasGoal (lineKind contentType) bodies := by
      simp [HasGoal]
    refine ⟨hout.trans ?_, hseen.trans ?_, hopen.trans ?_⟩
    · rw [Update.line_closed, edit]
      cases lineKind contentType body with
      | header goal =>
        dsimp only
        rw [Update.leave]
        split <;> simp [keyLine_eq]
      | entry => cases u.inDefaults <;> simp
      | other => simp
    · rw [Update.line_closed, hgoal]
      cases lineKind contentType body with
      | header goal => simp [or_assoc]
      | entry => cases u.inDefaults <;> simp
      | other => simp
    · rw [Update.line_closed, openAfter]
      cases lineKind contentType body with
      | header goal => rfl
      | entry => cases u.inDefaults <;> simp
      | other => rfl

theorem Update.foldl_start (bodies : List (List Char)) :
    let v := (bodies.map (· ++ ['\n'])).foldl (Update.line contentType desktopId) .start
    (v.leave contentType desktopId).out = (edit (lineKind contentType) (rewriteRow contentType desktopId)
        (row contentType desktopId) false false bodies).map (· ++ ['\n']) ∧
      (v.seenGroup = true ↔ HasGoal (lineKind contentType) bodies) ∧
      (v.inDefaults && !v.wroteKey) = openAfter (lineKind contentType) false false bodies := by
  obtain ⟨hout, hseen, hopen⟩ := Update.foldl_closed contentType desktopId .start bodies
  exact ⟨hout.trans (List.nil_append _), hseen.trans (or_iff_right Bool.false_ne_true), hopen⟩

/-- Inside the group without the key, leaving appends it. -/
theorem Update.leave_open {u : Update} (h : (u.inDefaults && !u.wroteKey) = true) :
    (u.leave contentType desktopId).out = u.out ++ [row contentType desktopId ++ ['\n']] := by
  rw [Update.leave, if_pos h, keyLine_eq]

theorem Update.leave_seenGroup (u : Update) : (u.leave contentType desktopId).seenGroup = u.seenGroup := by
  unfold Update.leave
  split <;> rfl

/-! ## The end of the text -/

theorem flatten_closed (bodies : List (List Char)) : (bodies.map (· ++ ['\n'])).flatten = unlines bodies := by
  rw [unlines, List.flatMap_def]

theorem unlines_append (a b : List (List Char)) : unlines (a ++ b) = unlines a ++ unlines b := List.flatMap_append

/-- Closed lines end the text. -/
theorem closed_end (bodies : List (List Char)) : ¬ (unlines bodies ≠ [] ∧ (unlines bodies).getLast? ≠ some '\n') := by
  rintro ⟨hne, hlast⟩
  induction bodies using List.reverseRecOn with
  | nil => exact hne rfl
  | append_singleton bodies body _ =>
    have hbody : unlines [body] = body ++ ['\n'] := List.append_nil _
    rw [unlines_append, hbody, ← List.append_assoc, List.getLast?_concat] at hlast
    exact hlast rfl

theorem Update.result_closed {u : Update} {bodies : List (List Char)} (hout : u.out = bodies.map (· ++ ['\n'])) :
    u.result contentType desktopId = unlines (if u.seenGroup then bodies else
      bodies ++ ((if bodies = [] then [] else [[]]) ++ ["[Default Applications]".toList, row contentType desktopId])) := by
  have hclose : Update.closeLast u.out = u.out := by
    rw [Update.closeLast, hout]
    induction bodies using List.reverseRecOn with
    | nil => rfl
    | append_singleton bodies body _ => simp
  have hheader : "[Default Applications]\n".toList = "[Default Applications]".toList ++ ['\n'] := by decide
  have hflatten : (if u.seenGroup then u.out else Update.closeLast u.out ++ ((if u.out = [] then [] else [['\n']]) ++
      ["[Default Applications]\n".toList, keyLine contentType desktopId])).flatten = unlines (if u.seenGroup then bodies else
      bodies ++ ((if bodies = [] then [] else [[]]) ++ ["[Default Applications]".toList, row contentType desktopId])) := by
    rw [← flatten_closed, hclose, hout, hheader, keyLine_eq]
    split
    · rfl
    · by_cases hnil : bodies = [] <;> simp [hnil]
  rw [Update.result, hflatten, if_neg (closed_end _)]

/-- A last line that is not closed is edited like one that is, or kept as it is. -/
theorem Update.line_last (u : Update) {last : List Char} (h : '\n' ∉ last) :
    (u.line contentType desktopId last = u.line contentType desktopId (last ++ ['\n']) ∧
        (u.line contentType desktopId last).wroteKey = true) ∨
      ∃ front, u.line contentType desktopId last =
        { u.line contentType desktopId (last ++ ['\n']) with out := front ++ [last] } ∧
        (u.line contentType desktopId (last ++ ['\n'])).out = front ++ [last ++ ['\n']] := by
  have hself : stripNewline last = last := if_neg fun hlast => h (List.mem_of_mem_getLast? (Option.mem_def.2 hlast))
  simp only [Update.line, stripNewline_closed, hself]
  cases headerOf last with
  | some name => exact .inr ⟨_, rfl, rfl⟩
  | none =>
    cases splitOnce '=' last with
    | none => exact .inr ⟨_, rfl, rfl⟩
    | some pair =>
      dsimp only
      split
      · exact .inl ⟨rfl, rfl⟩
      · exact .inr ⟨_, rfl, rfl⟩

/-- The end of a text that does not end with its line feed. -/
theorem Update.result_last {u : Update} {front : List (List Char)} {last : List Char} (hne : last ≠ []) (h : '\n' ∉ last) :
    ({ u with out := front ++ [last] } : Update).result contentType desktopId =
      ({ u with out := front ++ [last ++ ['\n']] } : Update).result contentType desktopId := by
  have hopen : last.getLast? ≠ some '\n' := fun hlast => h (List.mem_of_mem_getLast? (Option.mem_def.2 hlast))
  have hclose : Update.closeLast (front ++ [last]) = Update.closeLast (front ++ [last ++ ['\n']]) := by
    simp [Update.closeLast, hopen]
  simp only [Update.result, hclose]
  cases u.seenGroup with
  | true => simp [hne, hopen]
  | false => simp

/-- On closed lines the edit sets the key. -/
theorem Update.finish_closed (bodies : List (List Char)) :
    ((bodies.map (· ++ ['\n'])).foldl (Update.line contentType desktopId) .start).finish contentType desktopId =
      unlines (setRows contentType desktopId bodies) := by
  obtain ⟨hout, hseen, -⟩ := Update.foldl_start contentType desktopId bodies
  rw [Update.finish, Update.result_closed _ _ hout, Update.leave_seenGroup]
  unfold setRows setKey
  by_cases hgoal : HasGoal (lineKind contentType) bodies
  · rw [if_pos (hseen.2 hgoal), if_pos hgoal]
  · rw [if_neg fun h => hgoal (hseen.1 h), if_neg hgoal, edit_no_goal hgoal]

end

/-- The text ends, without a line feed, in an open `[Default Applications]` group: the only one, the last
group, and without an entry of the content type. -/
def Dangling (text : List Char) (contentType : String) : Prop :=
  text ≠ [] ∧ text.getLast? ≠ some '\n' ∧ Open (lineKind contentType.toList) (rows text)

/-- The state of the edit before and after a last line that is not closed. -/
theorem foldl_last (contentType desktopId : List Char) {rs : List (List Char)} {last : List Char}
    (hrows : ∀ r ∈ rs, '\n' ∉ r) (hlast : '\n' ∉ last) (hne : last ≠ []) : ∃ u : Update,
    (Lines.splitAfter '\n' (unlines rs ++ last)).foldl (Update.line contentType desktopId) .start =
      u.line contentType desktopId last ∧
    ((rs ++ [last]).map (· ++ ['\n'])).foldl (Update.line contentType desktopId) .start =
      u.line contentType desktopId (last ++ ['\n']) := by
  refine ⟨(rs.map (· ++ ['\n'])).foldl (Update.line contentType desktopId) .start, ?_, ?_⟩
  · rw [splitAfter_unlines hrows hlast, if_neg hne, List.foldl_append]
    rfl
  · rw [List.map_append, List.foldl_append]
    rfl

/-- Unless the text is dangling the edit sets the key on its lines. -/
theorem update_eq {text : List Char} {contentType : String} (h : ¬ Dangling text contentType) (desktopId : String) :
    updateDefaultApplications text contentType desktopId =
      unlines (setRows contentType.toList desktopId.toList (rows text)) := by
  obtain ⟨rs, last, rfl, hrows, hlast⟩ := unlines_rest text
  unfold updateDefaultApplications
  rw [rows_unlines hrows hlast]
  by_cases hne : last = []
  · rw [splitAfter_unlines hrows hlast, if_pos hne, List.append_nil, List.append_nil]
    exact Update.finish_closed _ _ rs
  · obtain ⟨u, hopened, hclosed⟩ := foldl_last contentType.toList desktopId.toList hrows hlast hne
    have hshut : openAfter (lineKind contentType.toList) false false (rs ++ [last]) = false := by
      rw [← Bool.not_eq_true, openAfter_iff]
      intro hopen
      refine h ⟨by simp [hne], ?_, by rwa [rows_unlines hrows hlast, if_neg hne]⟩
      rw [List.getLast?_append_of_ne_nil _ hne]
      exact fun hend => hlast (List.mem_of_mem_getLast? (Option.mem_def.2 hend))
    have hflags := (Update.foldl_start contentType.toList desktopId.toList (rs ++ [last])).2.2
    -- the last line is closed in the end, whether it is edited or not
    rw [if_neg hne, ← Update.finish_closed, hopened, hclosed]
    rw [hclosed, hshut] at hflags
    rcases u.line_last contentType.toList desktopId.toList hlast with ⟨heq, -⟩ | ⟨front, heq, hout⟩
    · rw [heq]
    · generalize u.line contentType.toList desktopId.toList (last ++ ['\n']) = v at heq hout hflags ⊢
      have hleave : ({ v with out := front ++ [last] } : Update).leave contentType.toList desktopId.toList =
          { v with out := front ++ [last] } := Update.leave_shut _ _ hflags
      rw [heq, Update.finish, hleave, Update.result_last _ _ hne hlast, ← hout, Update.finish, Update.leave_shut _ _ hflags]

/-- A dangling text gets the key behind its last line. -/
theorem update_open {text : List Char} {contentType : String} (h : Dangling text contentType) (desktopId : String) :
    ∃ rs last, text = unlines rs ++ last ∧ last ≠ [] ∧ rows text = rs ++ [last] ∧
      updateDefaultApplications text contentType desktopId =
        unlines (rs ++ [last ++ row contentType.toList desktopId.toList]) := by
  obtain ⟨hne, hend, hopen⟩ := h
  obtain ⟨rs, last, rfl, hrows, hlast⟩ := unlines_rest text
  have hlastne : last ≠ [] := by
    rintro rfl
    rw [List.append_nil] at hne hend
    exact closed_end rs ⟨hne, hend⟩
  rw [rows_unlines hrows hlast, if_neg hlastne] at hopen ⊢
  obtain ⟨u, hopened, hclosed⟩ := foldl_last contentType.toList desktopId.toList hrows hlast hlastne
  obtain ⟨hout, hseen, hflags⟩ := Update.foldl_start contentType.toList desktopId.toList (rs ++ [last])
  rw [hclosed] at hout hseen hflags
  have hflags := hflags.trans ((openAfter_iff _).2 hopen)
  have hseen := hseen.2 hopen.hasGoal
  refine ⟨rs, last, rfl, hlastne, rfl, ?_⟩
  unfold updateDefaultApplications
  rw [hopened]
  rcases u.line_last contentType.toList desktopId.toList hlast with ⟨heq, hwrote⟩ | ⟨front, heq, hfront⟩
  · -- an edited last line is an entry, and an open group has none
    rw [heq] at hwrote
    rw [hwrote] at hflags
    simp at hflags
  · rw [Update.leave_open _ _ hflags, hfront, hopen.edit, List.map_append, List.map_append, List.map_singleton,
      List.map_singleton, List.append_cancel_right_eq, List.append_cancel_right_eq] at hout
    have hlate : (u.line contentType.toList desktopId.toList last).inDefaults &&
        !(u.line contentType.toList desktopId.toList last).wroteKey := by
      rw [heq]
      exact hflags
    have hresult : ∀ v : Update, v.seenGroup = true → v.out.flatten.getLast? = some '\n' →
        v.result contentType.toList desktopId.toList = v.out.flatten := by
      intro v hv hend
      rw [Update.result, if_pos hv, if_neg fun h => h.2 hend]
    have hlines : (front ++ [last] ++ [row contentType.toList desktopId.toList ++ ['\n']]).flatten =
        unlines (rs ++ [last ++ row contentType.toList desktopId.toList]) := by
      rw [hout, ← flatten_closed]
      simp
    have hleft : ((u.line contentType.toList desktopId.toList last).leave contentType.toList desktopId.toList).out =
        front ++ [last] ++ [row contentType.toList desktopId.toList ++ ['\n']] := by
      rw [Update.leave_open _ _ hlate, heq]
    rw [Update.finish, hresult, hleft, hlines]
    · rw [Update.leave_seenGroup, heq]
      exact hseen
    · rw [hleft]
      simp

end AtriumPortal.Apps
