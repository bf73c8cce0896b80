import AtriumPortal.Apps.Desktop
import AtriumPortal.Apps.Globs
import Mathlib.Algebra.Group.Nat.Defs
/-!
# The content type of a file name

`apps/desktop.rs`: the rules of a `globs2` database. `apps.rs`: the rule that decides over
the databases of all data roots.
-/
open AtriumPortal.Lib.Text AtriumPortal.Prompter

namespace AtriumPortal.Apps

/-- Databases past this size are ignored. -/
def maxGlobsBytes : Nat := 1024 * 1024
/-- Rules read per database. -/
def maxGlobs : Nat := 16 * 1024

/-- One line of a database. -/
structure Rule where
  priority : Nat
  glob : String
  mime : String
  caseSensitive : Bool
  deriving DecidableEq, Repr

/-! ## Reading a database -/

/-- `str::parse::<u32>`. -/
def parseU32 (text : List Char) : Option Nat :=
  let digits := match text with
    | '+' :: digits => digits
    | digits => digits
  if digits = [] ∨ digits.any (fun c => !c.isDigit) then none
  else if Nat.ofDigitChars 10 digits 0 < 2 ^ 32 then some (Nat.ofDigitChars 10 digits 0)
  else none

/-- `priority:glob:mimetype[:flags]`, of whose flags only `cs` counts. -/
def readRule (line : List Char) : Option Rule :=
  if line.head? = some '#' ∨ trim isWhitespace line = [] then none
  else do
    let (priority, rest) ← splitOnce ':' line
    let priority ← parseU32 (trim isWhitespace priority)
    let (glob, rest) ← splitOnce ':' rest
    let (mime, flags) := (splitOnce ':' rest).getD (rest, [])
    if glob = [] ∨ mime = [] then none
    else some {
      priority := priority
      glob := String.ofList glob
      mime := String.ofList mime
      caseSensitive := (flags.splitOn ',').any (trim isWhitespace · = "cs".toList) }

def pushRule (globs : List Rule) (line : List Char) : List Rule :=
  match readRule line with
  | some rule => if globs.length ≥ maxGlobs then globs else globs ++ [rule]
  | none => globs

def parseGlobs2 (file : Option (List UInt8)) : List Rule :=
  match file.filter (·.length ≤ maxGlobsBytes) with
  | some bytes => (lines (fromUtf8Lossy bytes)).foldl pushRule []
  | none => []

theorem foldl_pushRule (globs : List Rule) (text : List (List Char)) (h : globs.length ≤ maxGlobs) :
    text.foldl pushRule globs = globs ++ (text.filterMap readRule).take (maxGlobs - globs.length) := by
  induction text generalizing globs with
  | nil => simp
  | cons line text ih =>
    rw [List.foldl_cons, pushRule]
    cases hline : readRule line with
    | none => rw [ih globs h, List.filterMap_cons_none hline]
    | some rule =>
      rw [List.filterMap_cons_some hline]
      by_cases hfull : globs.length ≥ maxGlobs
      · have hzero : maxGlobs - globs.length = 0 := by omega
        simp only [if_pos hfull, ih globs h, hzero, List.take_zero]
      · obtain ⟨room, hroom⟩ : ∃ room, maxGlobs - globs.length = room + 1 := ⟨maxGlobs - globs.length - 1, by omega⟩
        have hlen : (globs ++ [rule]).length ≤ maxGlobs := by
          rw [List.length_append, List.length_singleton]
          omega
        have hless : maxGlobs - (globs ++ [rule]).length = room := by
          rw [List.length_append, List.length_singleton]
          omega
        simp only [if_neg hfull, ih _ hlen, hless, hroom, List.take_succ_cons, List.append_assoc, List.singleton_append]

/-- The rules of a database are those of its first well-formed lines, in order. -/
theorem parseGlobs2_eq (file : Option (List UInt8)) : parseGlobs2 file =
    (((file.filter (·.length ≤ maxGlobsBytes)).map fun bytes => lines (fromUtf8Lossy bytes)).getD [] |>.filterMap
      readRule).take maxGlobs := by
  unfold parseGlobs2
  split
  · next bytes hfile =>
    rw [hfile, foldl_pushRule [] _ (Nat.zero_le _), List.nil_append, List.length_nil, Nat.sub_zero]
    rfl
  · next hfile =>
    rw [hfile]
    rfl

/-! ## Choosing a rule -/

section
variable (toLowercase : String → String) (name : String)

def Rule.accepts (rule : Rule) : Bool := globMatches toLowercase rule.glob name rule.caseSensitive

/-- A rule is only tried where it would win. -/
def better (best : Option (Nat × String)) (rule : Rule) : Option (Nat × String) :=
  if best.all (·.1 < rule.priority) && rule.accepts toLowercase name then some (rule.priority, rule.mime) else best

/-- The databases are those of the data roots, nearest first. -/
def contentTypeForFilename (roots : List (Option (List UInt8))) : Option String :=
  (roots.foldl (fun best root => (parseGlobs2 root).foldl (better toLowercase name) best) none).map (·.2)

/-- A rule that decides: it has the highest priority of all that accept the name, and is the
first of these. -/
def Decides (rules : List Rule) (rule : Rule) : Prop :=
  ∃ pre post, rules = pre ++ rule :: post ∧ rule.accepts toLowercase name = true ∧
    (∀ earlier ∈ pre, earlier.accepts toLowercase name = true → earlier.priority < rule.priority) ∧
    ∀ later ∈ post, later.accepts toLowercase name = true → later.priority ≤ rule.priority

/-- What was found after some of the rules. -/
def Found (rules : List Rule) : Option (Nat × String) → Prop
  | none => ∀ rule ∈ rules, rule.accepts toLowercase name = false
  | some (priority, mime) => ∃ rule, Decides toLowercase name rules rule ∧ rule.priority = priority ∧ rule.mime = mime
end

variable {toLowercase : String → String} {name : String}

/-- A rule that accepts the name and beats all that do so before it decides. -/
theorem decides_concat {rules : List Rule} {rule : Rule} (haccepts : rule.accepts toLowercase name = true)
    (h : ∀ earlier ∈ rules, earlier.accepts toLowercase name = true → earlier.priority < rule.priority) :
    Decides toLowercase name (rules ++ [rule]) rule :=
  ⟨rules, [], rfl, haccepts, h, nofun⟩

theorem Decides.concat {rules : List Rule} {rule last : Rule} (h : Decides toLowercase name rules rule)
    (hlast : last.accepts toLowercase name = true → last.priority ≤ rule.priority) :
    Decides toLowercase name (rules ++ [last]) rule := by
  obtain ⟨pre, post, rfl, haccepts, hpre, hpost⟩ := h
  refine ⟨pre, post ++ [last], by simp, haccepts, hpre, fun later hlater => ?_⟩
  rcases List.mem_append.1 hlater with hin | hin
  · exact hpost later hin
  · rw [List.mem_singleton.1 hin]
    exact hlast

/-- No rule that accepts the name has a higher priority than the one that decides. -/
theorem Decides.highest {rules : List Rule} {rule : Rule} (h : Decides toLowercase name rules rule) :
    ∀ other ∈ rules, other.accepts toLowercase name = true → other.priority ≤ rule.priority := by
  obtain ⟨pre, post, rfl, -, hpre, hpost⟩ := h
  intro other hin haccepts
  rcases List.mem_append.1 hin with hin | hin
  · exact (hpre other hin haccepts).le
  rcases List.mem_cons.1 hin with rfl | hin
  · exact le_refl _
  · exact hpost other hin haccepts

theorem better_found {rules : List Rule} {best : Option (Nat × String)} (h : Found toLowercase name rules best)
    (rule : Rule) : Found toLowercase name (rules ++ [rule]) (better toLowercase name best rule) := by
  unfold better
  cases haccepts : rule.accepts toLowercase name with
  | false =>
    rw [Bool.and_false, if_neg (by simp)]
    cases best with
    | none =>
      intro other hin
      rcases List.mem_append.1 hin with hin | hin
      · exact h other hin
      · rw [List.mem_singleton.1 hin]
        exact haccepts
    | some best =>
      obtain ⟨chosen, hchosen, hbest⟩ := h
      exact ⟨chosen, hchosen.concat (by simp [haccepts]), hbest⟩
  | true =>
    rw [Bool.and_true]
    cases best with
    | none =>
      rw [Option.all_none, if_pos rfl]
      exact ⟨rule, decides_concat haccepts fun earlier hin hacc => absurd hacc (by simp [h earlier hin]), rfl, rfl⟩
    | some best =>
      obtain ⟨chosen, hchosen, hpriority, hmime⟩ := h
      by_cases hwins : best.1 < rule.priority
      · rw [if_pos (by simpa using hwins)]
        refine ⟨rule, decides_concat haccepts fun earlier hin hacc => ?_, rfl, rfl⟩
        calc earlier.priority ≤ chosen.priority := hchosen.highest earlier hin hacc
          _ < rule.priority := by rw [hpriority]; exact hwins
      · rw [if_neg (by simpa using hwins)]
        exact ⟨chosen, hchosen.concat fun _ => by rw [hpriority]; exact Nat.not_lt.1 hwins, hpriority, hmime⟩

theorem foldl_better_found {before rules : List Rule} {best : Option (Nat × String)}
    (h : Found toLowercase name before best) :
    Found toLowercase name (before ++ rules) (rules.foldl (better toLowercase name) best) := by
  induction rules generalizing before best with
  | nil => rwa [List.append_nil]
  | cons rule rules ih =>
    rw [List.foldl_cons, ← List.singleton_append, ← List.append_assoc]
    exact ih (better_found h rule)

/-- The content type is that of the rule that decides among those of all roots, the nearer
roots' first and each root's in the order of its lines; there is none if no rule accepts the name. -/
theorem contentTypeForFilename_spec (toLowercase : String → String) (roots : List (Option (List UInt8))) (name : String) :
    (∀ mime, contentTypeForFilename toLowercase name roots = some mime →
      ∃ rule, Decides toLowercase name (roots.flatMap parseGlobs2) rule ∧ rule.mime = mime) ∧
    (contentTypeForFilename toLowercase name roots = none ↔
      ∀ rule ∈ roots.flatMap parseGlobs2, rule.accepts toLowercase name = false) := by
  have hfound : Found toLowercase name ([] ++ roots.flatMap parseGlobs2)
      ((roots.flatMap parseGlobs2).foldl (better toLowercase name) none) := foldl_better_found nofun
  rw [List.nil_append] at hfound
  rw [contentTypeForFilename, ← List.foldl_flatMap]
  cases hbest : (roots.flatMap parseGlobs2).foldl (better toLowercase name) none with
  | none =>
    rw [hbest] at hfound
    exact ⟨nofun, fun _ => hfound, fun _ => rfl⟩
  | some best =>
    rw [hbest] at hfound
    obtain ⟨rule, hdecides, -, hmime⟩ := hfound
    refine ⟨?_, nofun, fun hnone => ?_⟩
    · rintro mime ⟨⟩
      exact ⟨rule, hdecides, hmime⟩
    · obtain ⟨pre, post, hrules, haccepts, -⟩ := hdecides
      have hrefuses := hnone rule (by rw [hrules]; simp)
      rw [hrefuses] at haccepts
      cases haccepts

end AtriumPortal.Apps
