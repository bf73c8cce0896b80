import Mathlib.Data.List.Basic
/-!
# Paths of bytes

Unix paths as the standard library of Rust reads them: a path is any list of bytes,
two paths are equal when their `components` are, and `join` works on the bytes.
-/

namespace AtriumPortal.Lib.Path

abbrev Bytes : Type := List UInt8

/-- The bytes of a text. -/
def bytes (text : String) : Bytes := text.toUTF8.data.toList

theorem bytes_eq (text : String) : bytes text = text.toList.flatMap String.utf8EncodeChar := by
  conv_lhs => rw [← String.ofList_toList (s := text)]
  rw [bytes, String.toUTF8_eq_toByteArray, String.toByteArray_ofList, List.utf8Encode, List.data_toByteArray]

theorem bytes_append (s t : String) : bytes (s ++ t) = bytes s ++ bytes t := by
  simp [bytes, String.toByteArray_append]

/-- The byte of `/`. -/
abbrev slash : UInt8 := 47
/-- The byte of `.`. -/
abbrev dot : UInt8 := 46

inductive Component where
  | rootDir
  | curDir
  | parentDir
  | normal (name : Bytes)
  deriving DecidableEq, Repr

/-- The component that a part between two slashes stands for. -/
def component? (part : Bytes) : Option Component :=
  if part = [] ∨ part = [dot] then none else if part = [dot, dot] then some .parentDir else some (.normal part)

def isAbsolute (path : Bytes) : Bool := path.head? == some slash

/-- `Path::components`: a `.` counts only at the start of a relative path. -/
def components (path : Bytes) : List Component :=
  match path.splitOn slash with
  | [] => []
  | first :: rest =>
    (if isAbsolute path then [.rootDir] else if first = [dot] then [.curDir] else (component? first).toList) ++
      rest.filterMap component?

/-- `Path::join`. -/
def join (base path : Bytes) : Bytes :=
  if isAbsolute path then path
  else if base.getLast?.any (· ≠ slash) then base ++ slash :: path
  else base ++ path

/-- Two relative paths from one base are told apart. -/
theorem join_relative_inj {base path path' : Bytes} (hpath : isAbsolute path = false) (hpath' : isAbsolute path' = false)
    (h : join base path = join base path') : path = path' := by
  simp only [join, hpath, hpath', Bool.false_eq_true, if_false] at h
  split at h
  · exact (List.cons.inj (List.append_cancel_left h)).2
  · exact List.append_cancel_left h

/-! ## Relative paths -/

/-- The components that the parts of a path stand for, when the path does not start with a `.`. -/
def names (path : Bytes) : List Component := (path.splitOn slash).filterMap component?

/-- The path is relative, and does not start with a `.`. -/
def Plain (path : Bytes) : Prop := isAbsolute path = false ∧ (path.splitOn slash).head? ≠ some [dot]

theorem names_append_slash (path rest : Bytes) : names (path ++ slash :: rest) = names path ++ names rest := by
  rw [names, List.splitOn_append_cons_self, List.filterMap_append]
  rfl

theorem names_nil : names [] = [] := rfl

theorem names_part {part : Bytes} (h : slash ∉ part) : names part = (component? part).toList := by
  rw [names, List.splitOn_eq_singleton h, List.filterMap_cons]
  cases component? part <;> rfl

/-- The first part of a path, and what follows its first slash. -/
theorem first_part (path : Bytes) :
    ∃ first tail, path = first ++ tail ∧ slash ∉ first ∧ (tail = [] ∨ ∃ rest, tail = slash :: rest) := by
  by_cases h : slash ∈ path
  · obtain ⟨first, rest, he, hfirst⟩ := List.eq_append_cons_of_mem h
    exact ⟨first, slash :: rest, he, hfirst, .inr ⟨rest, rfl⟩⟩
  · exact ⟨path, [], (List.append_nil path).symm, h, .inl rfl⟩

/-- The last part of a path, and what stands before it. -/
theorem last_part (path : Bytes) :
    ∃ front last, path = front ++ last ∧ slash ∉ last ∧ (front = [] ∨ ∃ rest, front = rest ++ [slash]) := by
  obtain ⟨first, tail, he, hfirst, htail⟩ := first_part path.reverse
  refine ⟨tail.reverse, first.reverse, ?_, by simpa using hfirst, ?_⟩
  · rw [← List.reverse_append, ← he, List.reverse_reverse]
  · rcases htail with rfl | ⟨rest, rfl⟩
    · exact .inl rfl
    · exact .inr ⟨rest.reverse, by simp⟩

theorem head?_splitOn {first tail : Bytes} (hfirst : slash ∉ first) (htail : tail = [] ∨ ∃ rest, tail = slash :: rest) :
    ((first ++ tail).splitOn slash).head? = some first := by
  rcases htail with rfl | ⟨rest, rfl⟩
  · rw [List.append_nil, List.splitOn_eq_singleton hfirst]
    rfl
  · rw [List.splitOn_append_cons_self_of_not_mem hfirst]
    rfl

theorem names_append {part tail : Bytes} (hpart : slash ∉ part) (htail : tail = [] ∨ ∃ rest, tail = slash :: rest) :
    names (part ++ tail) = (component? part).toList ++ names tail := by
  rcases htail with rfl | ⟨rest, rfl⟩
  · rw [List.append_nil, names_part hpart, names_nil, List.append_nil]
  · have hslash : names (slash :: rest) = names rest := names_append_slash [] rest
    rw [names_append_slash, names_part hpart, hslash]

theorem names_prepend {front : Bytes} (hfront : front = [] ∨ ∃ rest, front = rest ++ [slash]) (path : Bytes) :
    names (front ++ path) = names front ++ names path := by
  rcases hfront with rfl | ⟨rest, rfl⟩
  · rfl
  · have hslash : names (rest ++ [slash]) = names rest ++ names [] := names_append_slash rest []
    rw [List.append_assoc, List.singleton_append, names_append_slash, hslash, names_nil, List.append_nil]

/-- A plain path has no components but the ones its parts stand for. -/
theorem components_plain {path : Bytes} (h : Plain path) : components path = names path := by
  obtain ⟨habs, hdot⟩ := h
  unfold components names
  cases hsplit : path.splitOn slash with
  | nil => rfl
  | cons first rest =>
    rw [hsplit] at hdot
    have hfirst : first ≠ [dot] := fun he => hdot (congrArg some he)
    simp only [habs, hfirst, Bool.false_eq_true, if_false, List.filterMap_cons]
    cases component? first <;> rfl

/-- A path of one normal component is plain. -/
theorem plain_of_components {path name : Bytes} (h : components path = [.normal name]) : Plain path := by
  unfold components at h
  refine ⟨?_, fun hdot => ?_⟩
  · cases habs : isAbsolute path with
    | false => rfl
    | true =>
      exfalso
      split at h
      · cases h
      · simp [habs] at h
  · split at h
    · cases h
    · next first rest hsplit =>
      rw [hsplit] at hdot
      cases hdot
      split at h <;> simp at h

/-- The first part of a plain path is a component of it. -/
theorem component?_first {first tail : Bytes} (h : Plain (first ++ tail)) (hne : first ++ tail ≠ [])
    (hfirst : slash ∉ first) (htail : tail = [] ∨ ∃ rest, tail = slash :: rest) : ∃ c, component? first = some c := by
  obtain ⟨habs, hdot⟩ := h
  rw [head?_splitOn hfirst htail] at hdot
  have hempty : first ≠ [] := by
    rintro rfl
    rcases htail with rfl | ⟨rest, rfl⟩
    · exact hne rfl
    · exact absurd habs (by simp [isAbsolute])
  unfold component?
  rw [if_neg (not_or.2 ⟨hempty, fun he => hdot (congrArg some he)⟩)]
  split
  · exact ⟨_, rfl⟩
  · exact ⟨_, rfl⟩

/-- What follows a slash is read part by part. -/
theorem components_append_slash {base : Bytes} (h : base ≠ []) (rest : Bytes) :
    components (base ++ slash :: rest) = components base ++ names rest := by
  have habs : isAbsolute (base ++ slash :: rest) = isAbsolute base := by
    cases base with
    | nil => exact absurd rfl h
    | cons => rfl
  unfold components names
  rw [habs, List.splitOn_append_cons_self]
  cases hsplit : base.splitOn slash with
  | nil => exact absurd hsplit (List.splitOn_ne_nil slash base)
  | cons first parts => simp [List.filterMap_append]

/-- What follows the root is read part by part. -/
theorem components_root (rest : Bytes) : components (slash :: rest) = .rootDir :: names rest := by
  have hsplit : (slash :: rest).splitOn slash = [] :: rest.splitOn slash := List.splitOn_append_cons_self [] rest
  unfold components names
  rw [hsplit]
  rfl

/-- Joining a plain path appends its components. -/
theorem components_join (base : Bytes) {path : Bytes} (h : Plain path) :
    components (join base path) = components base ++ components path := by
  rw [components_plain h, join, if_neg (by simp [h.1])]
  cases hlast : base.getLast? with
  | none =>
    rw [List.getLast?_eq_none_iff.1 hlast]
    exact components_plain h
  | some last =>
    obtain ⟨front, rfl⟩ := List.getLast?_eq_some_iff.1 hlast
    by_cases hslash : last = slash
    · subst hslash
      simp only [Option.any_some, ne_eq, not_true_eq_false, decide_false, Bool.false_eq_true, if_false]
      rw [List.append_assoc, List.singleton_append]
      -- The base ends with a slash already: the root, or a path with nothing behind its last slash.
      by_cases hfront : front = []
      · rw [hfront, List.nil_append, List.nil_append, components_root, components_root]
        rfl
      · rw [components_append_slash hfront, components_append_slash hfront, names_nil, List.append_nil]
    · simp only [Option.any_some, ne_eq, hslash, not_false_eq_true, decide_true, if_true]
      exact components_append_slash (by simp) path

end AtriumPortal.Lib.Path
