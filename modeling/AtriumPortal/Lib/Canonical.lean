import AtriumPortal.Lib.Path
/-!
# Canonical paths

Absolute paths in the one spelling that their components are collected to.
-/

namespace AtriumPortal.Lib.Path

/-- `Component::as_os_str`. -/
def Component.text : Component → Bytes
  | .rootDir => [slash]
  | .curDir => [dot]
  | .parentDir => [dot, dot]
  | .normal name => name

/-- `collect::<PathBuf>()`: every component is pushed behind the ones before it. -/
def collect (parts : List Component) : Bytes := parts.foldl (fun path part => join path part.text) []

/-- The name of a normal component. -/
def Proper (name : Bytes) : Prop := name ≠ [] ∧ name ≠ [dot] ∧ name ≠ [dot, dot] ∧ slash ∉ name

/-- The root, or proper names with one slash in front of each. -/
def Canonical (path : Bytes) : Prop :=
  path = [slash] ∨ ∃ names, names ≠ [] ∧ (∀ name ∈ names, Proper name) ∧ path = names.flatMap (slash :: ·)

theorem component?_proper {name : Bytes} (h : Proper name) : component? name = some (.normal name) := by
  unfold component?
  rw [if_neg (not_or.2 ⟨h.1, h.2.1⟩), if_neg h.2.2.1]

/-- A part between two slashes stands for nothing, for the parent, or for itself. -/
theorem component?_cases {part : Bytes} {c : Component} (hpart : slash ∉ part) (h : component? part = some c) :
    c = .parentDir ∨ ∃ name, c = .normal name ∧ Proper name := by
  unfold component? at h
  split at h
  · cases h
  · next hnone =>
    obtain ⟨hempty, hdot⟩ := not_or.1 hnone
    split at h
    · cases h
      exact .inl rfl
    · next hparent =>
      cases h
      exact .inr ⟨part, rfl, hempty, hdot, hparent, hpart⟩

/-- No part of a split holds a slash. -/
theorem slash_not_mem_splitOn (path : Bytes) : ∀ part ∈ path.splitOn slash, slash ∉ part := by
  induction path with
  | nil => simp
  | cons b path ih =>
    rw [List.splitOn_cons_eq_if_modifyHead]
    split
    · intro part hin
      rcases List.mem_cons.1 hin with rfl | hin
      · simp
      · exact ih part hin
    · next hb =>
      have hne : slash ≠ b := fun he => hb (by rw [he, beq_self_eq_true])
      cases hsplit : path.splitOn slash with
      | nil => exact absurd hsplit (List.splitOn_ne_nil slash path)
      | cons first parts =>
        rw [hsplit] at ih
        intro part hin
        rcases List.mem_cons.1 hin with rfl | hin
        · exact List.not_mem_cons_of_ne_of_not_mem hne (ih first (List.mem_cons_self ..))
        · exact ih part (List.mem_cons_of_mem _ hin)

theorem names_cases {path : Bytes} {c : Component} (h : c ∈ names path) :
    c = .parentDir ∨ ∃ name, c = .normal name ∧ Proper name := by
  obtain ⟨part, hpart, hc⟩ := List.mem_filterMap.1 h
  exact component?_cases (slash_not_mem_splitOn path part hpart) hc

/-- A path without a parent component consists of proper names. -/
theorem names_proper {path : Bytes} (h : .parentDir ∉ names path) :
    ∃ proper : List Bytes, names path = proper.map .normal ∧ ∀ name ∈ proper, Proper name := by
  have hall : ∀ c ∈ names path, ∃ name, Proper name ∧ Component.normal name = c := by
    intro c hc
    rcases names_cases hc with rfl | ⟨name, rfl, hname⟩
    · exact absurd hc h
    · exact ⟨name, hname, rfl⟩
  generalize names path = parts at hall
  induction parts with
  | nil => exact ⟨[], rfl, nofun⟩
  | cons c parts ih =>
    obtain ⟨name, hname, rfl⟩ := hall c (List.mem_cons_self ..)
    obtain ⟨proper, hproper, hall'⟩ := ih fun c hc => hall c (List.mem_cons_of_mem _ hc)
    refine ⟨name :: proper, by rw [hproper, List.map_cons], ?_⟩
    rintro other hin
    rcases List.mem_cons.1 hin with rfl | hin
    · exact hname
    · exact hall' other hin

/-- Names behind slashes are read as these names. -/
theorem names_flatMap {proper : List Bytes} (h : ∀ name ∈ proper, Proper name) :
    names (proper.flatMap (slash :: ·)) = proper.map .normal := by
  have hslash : ∀ rest, names (slash :: rest) = names rest := fun rest => names_append_slash [] rest
  induction proper with
  | nil => rfl
  | cons name proper ih =>
    have hname := h name (List.mem_cons_self ..)
    have htail : proper.flatMap (slash :: ·) = [] ∨ ∃ rest, proper.flatMap (slash :: ·) = slash :: rest := by
      cases proper with
      | nil => exact .inl rfl
      | cons next proper => exact .inr ⟨_, rfl⟩
    rw [List.flatMap_cons, List.cons_append, hslash, names_append hname.2.2.2 htail, component?_proper hname,
      ih fun name hin => h name (List.mem_cons_of_mem _ hin)]
    rfl

/-! ## Collecting components -/

theorem Proper.relative {name : Bytes} (h : Proper name) : isAbsolute name = false := by
  cases name with
  | nil => rfl
  | cons b rest =>
    have hb : b ≠ slash := fun hb => h.2.2.2 (hb ▸ List.mem_cons_self ..)
    simpa [isAbsolute] using hb

/-- A path that ends with a name does not end with a slash. -/
theorem Proper.getLast? {name : Bytes} (h : Proper name) (path : Bytes) :
    (path ++ slash :: name).getLast?.any (· ≠ slash) = true := by
  obtain ⟨front, last, rfl⟩ : ∃ front last, name = front ++ [last] := by
    rcases List.eq_nil_or_concat name with hnil | ⟨front, last, hname⟩
    · exact absurd hnil h.1
    · exact ⟨front, last, by rw [hname, List.concat_eq_append]⟩
  have hne : last ≠ slash := fun he => h.2.2.2 (by simp [he])
  rw [← List.cons_append, ← List.append_assoc, List.getLast?_concat]
  simpa using hne

theorem join_proper {path name : Bytes} (hname : Proper name) (hlast : path.getLast?.any (· ≠ slash) = true) :
    join path name = path ++ slash :: name := by
  rw [join, if_neg (by simp [hname.relative]), if_pos hlast]

/-- Behind a path that ends with a name each name gets one slash. -/
theorem foldl_join_proper {path : Bytes} {proper : List Bytes} (h : ∀ name ∈ proper, Proper name)
    (hlast : path.getLast?.any (· ≠ slash) = true) :
    (proper.map Component.normal).foldl (fun path part => join path part.text) path = path ++ proper.flatMap (slash :: ·) := by
  induction proper generalizing path with
  | nil => simp
  | cons name proper ih =>
    have hname := h name (List.mem_cons_self ..)
    rw [List.map_cons, List.foldl_cons, Component.text, join_proper hname hlast,
      ih (fun name hin => h name (List.mem_cons_of_mem _ hin)) (hname.getLast? path), List.flatMap_cons, List.append_assoc]

/-- The root and names are collected with one slash in front of each name. -/
theorem collect_root {proper : List Bytes} (h : ∀ name ∈ proper, Proper name) :
    collect (.rootDir :: proper.map .normal) = if proper = [] then [slash] else proper.flatMap (slash :: ·) := by
  have hroot : join [] (Component.text .rootDir) = [slash] := rfl
  cases proper with
  | nil => exact hroot
  | cons name proper =>
    have hname := h name (List.mem_cons_self ..)
    have hfirst : join [slash] name = slash :: name := by
      rw [join, if_neg (by simp [hname.relative]), if_neg (by simp)]
      rfl
    have hlast : (slash :: name).getLast?.any (· ≠ slash) = true := hname.getLast? []
    rw [collect, List.foldl_cons, hroot, List.map_cons, List.foldl_cons, Component.text, hfirst,
      foldl_join_proper (fun name hin => h name (List.mem_cons_of_mem _ hin)) hlast, if_neg (List.cons_ne_nil _ _),
      List.flatMap_cons]

/-- Without dot components an absolute path is the one its components are collected to exactly
when it is canonical. -/
theorem collect_components_iff {path : Bytes} (habs : isAbsolute path = true) (hparent : .parentDir ∉ components path) :
    collect (components path) = path ↔ Canonical path := by
  obtain ⟨rest, rfl⟩ : ∃ rest, path = slash :: rest := by
    cases path with
    | nil => cases habs
    | cons b rest => exact ⟨rest, by simpa [isAbsolute] using habs⟩
  rw [components_root] at hparent ⊢
  obtain ⟨proper, hnames, hproper⟩ := names_proper fun hin => hparent (List.mem_cons_of_mem _ hin)
  rw [hnames, collect_root hproper]
  constructor
  · intro h
    split at h
    · exact .inl h.symm
    · next hne => exact .inr ⟨proper, hne, hproper, h.symm⟩
  · rintro (h | ⟨given, hne, hgiven, h⟩)
    · obtain rfl : rest = [] := (List.cons.inj h).2
      rw [names_nil] at hnames
      rw [if_pos (List.map_eq_nil_iff.1 hnames.symm)]
    -- the slash in front of the first name is the root's
    · have hread : names rest = given.map .normal := by
        rw [← names_flatMap hgiven, ← h]
        exact (names_append_slash [] rest).symm
      rw [hnames, List.map_inj_right fun _ _ heq => by cases heq; rfl] at hread
      rw [hread, if_neg hne, h]

/-- A canonical path has no dot components. -/
theorem Canonical.components {path : Bytes} (h : Canonical path) :
    isAbsolute path = true ∧ ∀ c ∈ components path, c ≠ .curDir ∧ c ≠ .parentDir := by
  obtain ⟨proper, rest, rfl, hnames⟩ : ∃ (proper : List Bytes) (rest : Bytes), path = slash :: rest ∧
      names rest = proper.map .normal := by
    rcases h with rfl | ⟨proper, hne, hproper, rfl⟩
    · exact ⟨[], [], rfl, names_nil⟩
    · obtain ⟨name, more, rfl⟩ := List.exists_cons_of_ne_nil hne
      refine ⟨name :: more, name ++ more.flatMap (slash :: ·), rfl, ?_⟩
      rw [← names_flatMap hproper]
      exact (names_append_slash [] _).symm
  refine ⟨rfl, fun c hc => ?_⟩
  rw [components_root, hnames] at hc
  rcases List.mem_cons.1 hc with rfl | hc
  · exact ⟨by simp, by simp⟩
  · obtain ⟨name, -, rfl⟩ := List.mem_map.1 hc
    exact ⟨by simp, by simp⟩

/-- A proper name under a canonical path. -/
theorem Canonical.join {path name : Bytes} (h : Canonical path) (hname : Proper name) : Canonical (join path name) := by
  rcases h with rfl | ⟨proper, hne, hproper, rfl⟩
  · refine .inr ⟨[name], List.cons_ne_nil _ _, by simpa using hname, ?_⟩
    rw [Path.join, if_neg (by simp [hname.relative]), if_neg (by simp)]
    simp
  · have hlast : (proper.flatMap (slash :: ·)).getLast?.any (· ≠ slash) = true := by
      obtain ⟨front, last, rfl⟩ : ∃ front last, proper = front ++ [last] := by
        rcases List.eq_nil_or_concat proper with hnil | ⟨front, last, hlast⟩
        · exact absurd hnil hne
        · exact ⟨front, last, by rw [hlast, List.concat_eq_append]⟩
      rw [List.flatMap_append, List.flatMap_singleton]
      exact (hproper last (by simp)).getLast? _
    refine .inr ⟨proper ++ [name], by simp, ?_, ?_⟩
    · intro other hin
      rcases List.mem_append.1 hin with hin | hin
      · exact hproper other hin
      · rwa [List.mem_singleton.1 hin]
    · rw [join_proper hname hlast, List.flatMap_append, List.flatMap_singleton]

end AtriumPortal.Lib.Path
