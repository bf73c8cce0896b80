import AtriumPortal.Lib.Binary64
import AtriumPortal.Lib.Overlay
import AtriumPortal.Portal.Dialogs
/-!
# Settings

`settings.rs`: the compositor's preferences as D-Bus settings, all at once and as the change
signals between two snapshots. `changedSettings_difference`: the signals are the difference.
`Client.current_updates`: a client that was told all of them has the current settings.
-/
open AtriumPortal.Lib AtriumPortal.Lib.Overlay AtriumPortal.Lib.Table AtriumPortal.Prompter

namespace AtriumPortal.Portal.Settings

def appearanceNamespace : String := "org.freedesktop.appearance"
def gtkInterfaceNamespace : String := "org.gnome.desktop.interface"
def colorSchemeKey : String := "color-scheme"
def accentColorKey : String := "accent-color"
def contrastKey : String := "contrast"
def reducedMotionKey : String := "reduced-motion"

/-- The whole snapshot of the compositor's preferences. -/
structure DesktopPreferences extends Portal.DesktopPreferences where
  fontName : String
  monospaceFontName : String
  textScale : F64
  iconTheme : String
  cursorTheme : String
  cursorSize : UInt32
  deriving DecidableEq, Repr

/-- The D-Bus values of settings. -/
inductive OwnedValue where
  | u32 (value : UInt32)
  | i32 (value : Int32)
  | bool (value : Bool)
  | f64 (value : F64)
  | str (value : String)
  /-- A structure of three doubles. -/
  | triple (red green blue : F64)
  deriving DecidableEq, Repr

/-- Values compare as what they hold, doubles by their own equality. -/
instance : BEq OwnedValue where
  beq
    | .u32 a, .u32 b => a = b
    | .i32 a, .i32 b => a = b
    | .bool a, .bool b => a = b
    | .f64 a, .f64 b => a == b
    | .str a, .str b => a = b
    | .triple r g b, .triple r' g' b' => r == r' && g == g' && b == b'
    | _, _ => false

abbrev Setting : Type := String × String × OwnedValue

/-- `AccentColor::normalized`. -/
def normalized (accent : AccentColor) : OwnedValue :=
  .triple (.ofRatio accent.red.toNat 255) (.ofRatio accent.green.toNat 255) (.ofRatio accent.blue.toNat 255)

/-- The public portal treats out-of-range components as unset. -/
def unsetAccent : OwnedValue := .triple .minusOne .minusOne .minusOne

def portalColorScheme : ColorScheme → UInt32
  | .system => 0
  | .dark => 1
  | .light => 2

def gtkColorScheme : ColorScheme → String
  | .system => "default"
  | .dark => "prefer-dark"
  | .light => "prefer-light"

def portalContrast : Contrast → UInt32
  | .normal => 0
  | .high => 1

def accentEntries : Option AccentColor → List Setting
  | some accent => [(appearanceNamespace, accentColorKey, normalized accent)]
  | none => []

def settingEntries (preferences : DesktopPreferences) : List Setting :=
  [ (appearanceNamespace, colorSchemeKey, OwnedValue.u32 (portalColorScheme preferences.colorScheme)),
    (appearanceNamespace, contrastKey, OwnedValue.u32 (portalContrast preferences.contrast)),
    (appearanceNamespace, reducedMotionKey, OwnedValue.u32 preferences.reducedMotion.toUInt32),
    (gtkInterfaceNamespace, colorSchemeKey, OwnedValue.str (gtkColorScheme preferences.colorScheme)),
    (gtkInterfaceNamespace, "font-name", OwnedValue.str preferences.fontName),
    (gtkInterfaceNamespace, "monospace-font-name", OwnedValue.str preferences.monospaceFontName),
    (gtkInterfaceNamespace, "text-scaling-factor", OwnedValue.f64 preferences.textScale),
    (gtkInterfaceNamespace, "icon-theme", OwnedValue.str preferences.iconTheme),
    (gtkInterfaceNamespace, "cursor-theme", OwnedValue.str preferences.cursorTheme),
    (gtkInterfaceNamespace, "cursor-size", OwnedValue.i32 preferences.cursorSize.toInt32),
    (gtkInterfaceNamespace, "enable-animations", OwnedValue.bool !preferences.reducedMotion) ] ++
  accentEntries preferences.accentColor

/-- What `Read` returns. -/
def lookup (preferences : DesktopPreferences) (space key : String) : Option OwnedValue :=
  valueAt (settingEntries preferences) space key

def namespaceMatches (pattern space : String) : Bool :=
  pattern = "" || pattern = space ||
    (pattern.toList.getLast? = some '*' && pattern.toList.dropLast.isPrefixOf space.toList)

/-- No namespaces are all. -/
def wanted (namespaces : List String) (space : String) : Bool :=
  namespaces.isEmpty || namespaces.any fun pattern => namespaceMatches pattern space

/-- What `ReadAll` returns. -/
def readAllValues (preferences : DesktopPreferences) (namespaces : List String) : Nested String String OwnedValue :=
  (settingEntries preferences).foldl (fun out e => if wanted namespaces e.1 then put out e else out) ∅

def changedSettings (previous current : DesktopPreferences) : List Setting :=
  (if previous.colorScheme ≠ current.colorScheme then
    [ (appearanceNamespace, colorSchemeKey, OwnedValue.u32 (portalColorScheme current.colorScheme)),
      (gtkInterfaceNamespace, colorSchemeKey, OwnedValue.str (gtkColorScheme current.colorScheme)) ]
  else []) ++
  (if previous.accentColor ≠ current.accentColor then
    [(appearanceNamespace, accentColorKey, (current.accentColor.map normalized).getD unsetAccent)]
  else []) ++
  (if previous.contrast ≠ current.contrast then
    [(appearanceNamespace, contrastKey, OwnedValue.u32 (portalContrast current.contrast))]
  else []) ++
  (if previous.reducedMotion ≠ current.reducedMotion then
    [ (appearanceNamespace, reducedMotionKey, OwnedValue.u32 current.reducedMotion.toUInt32),
      (gtkInterfaceNamespace, "enable-animations", OwnedValue.bool !current.reducedMotion) ]
  else []) ++
  (if previous.fontName ≠ current.fontName then [(gtkInterfaceNamespace, "font-name", OwnedValue.str current.fontName)]
  else []) ++
  (if previous.monospaceFontName ≠ current.monospaceFontName then
    [(gtkInterfaceNamespace, "monospace-font-name", OwnedValue.str current.monospaceFontName)]
  else []) ++
  (if previous.textScale != current.textScale then
    [(gtkInterfaceNamespace, "text-scaling-factor", OwnedValue.f64 current.textScale)]
  else []) ++
  (if previous.iconTheme ≠ current.iconTheme then [(gtkInterfaceNamespace, "icon-theme", OwnedValue.str current.iconTheme)]
  else []) ++
  (if previous.cursorTheme ≠ current.cursorTheme then
    [(gtkInterfaceNamespace, "cursor-theme", OwnedValue.str current.cursorTheme)]
  else []) ++
  (if previous.cursorSize ≠ current.cursorSize then
    [(gtkInterfaceNamespace, "cursor-size", OwnedValue.i32 current.cursorSize.toInt32)]
  else [])

/-- What `update_and_emit` does: the new snapshot, whether the daemon's cards are restyled, and the signals. -/
structure Update where
  store : DesktopPreferences
  restyles : Bool
  signals : List Setting

def updateAndEmit (store preferences : DesktopPreferences) : Update where
  store := preferences
  restyles := store.colorScheme ≠ preferences.colorScheme || store.accentColor ≠ preferences.accentColor ||
    store.contrast ≠ preferences.contrast || store.reducedMotion ≠ preferences.reducedMotion
  signals := changedSettings store preferences

/-! ## Values -/

/-- Values that compare as equal. -/
abbrev Same (a b : OwnedValue) : Prop := (a == b) = true

theorem ratio_lt {m n : Nat} (hlt : m < n) (hn : n ≤ 255) : (F64.ofRatio m 255).bits < (F64.ofRatio n 255).bits := by
  have hnext : ∀ n < 255, (F64.ofRatio n 255).bits < (F64.ofRatio (n + 1) 255).bits := by decide +kernel
  induction n, hlt using Nat.le_induction with
  | base => exact hnext m hn
  | succ n _ ih => exact UInt64.lt_trans (ih (Nat.le_of_succ_le hn)) (hnext n hn)

/-- A component is recovered from its quotient. -/
theorem ratio_beq_iff {m n : UInt8} : (F64.ofRatio m.toNat 255 == F64.ofRatio n.toNat 255) = true ↔ m = n := by
  have hnumber : ∀ n < 256, (F64.ofRatio n 255).isNaN = false ∧ ((F64.ofRatio n 255).isZero = true → n = 0) := by
    decide +kernel
  have hm := hnumber m.toNat m.toNat_lt
  have hn := hnumber n.toNat n.toNat_lt
  constructor
  · intro h
    obtain ⟨-, -, hbits | ⟨hm0, hn0⟩⟩ := F64.beq_iff.1 h
    · rcases Nat.lt_trichotomy m.toNat n.toNat with hlt | heq | hlt
      · exact absurd hbits (UInt64.ne_of_lt (ratio_lt hlt (Nat.le_of_lt_succ n.toNat_lt)))
      · exact UInt8.toNat_inj.1 heq
      · exact absurd hbits.symm (UInt64.ne_of_lt (ratio_lt hlt (Nat.le_of_lt_succ m.toNat_lt)))
    · exact UInt8.toNat_inj.1 ((hm.2 hm0).trans (hn.2 hn0).symm)
  · rintro rfl
    exact F64.beq_self.2 hm.1

@[simp] theorem same_u32 {a b : UInt32} : Same (.u32 a) (.u32 b) ↔ a = b := decide_eq_true_iff

@[simp] theorem same_i32 {a b : Int32} : Same (.i32 a) (.i32 b) ↔ a = b := decide_eq_true_iff

@[simp] theorem same_bool {a b : Bool} : Same (.bool a) (.bool b) ↔ a = b := decide_eq_true_iff

@[simp] theorem same_str {a b : String} : Same (.str a) (.str b) ↔ a = b := decide_eq_true_iff

@[simp] theorem same_f64 {a b : F64} : Same (.f64 a) (.f64 b) ↔ (a == b) = true := Iff.rfl

@[simp] theorem same_triple {r g b r' g' b' : F64} :
    Same (.triple r g b) (.triple r' g' b') ↔ (r == r') = true ∧ (g == g') = true ∧ (b == b') = true := by
  change (r == r' && g == g' && b == b') = true ↔ _
  rw [Bool.and_eq_true, Bool.and_eq_true, and_assoc]

theorem same_normalized {accent accent' : AccentColor} :
    Same (normalized accent) (normalized accent') ↔ accent = accent' := by
  obtain ⟨r, g, b⟩ := accent
  obtain ⟨r', g', b'⟩ := accent'
  simp only [normalized, same_triple, ratio_beq_iff, AccentColor.mk.injEq]

theorem same_trans {a b c : OwnedValue} (h : Same a b) (h' : Same b c) : Same a c := by
  cases a with
  | u32 a =>
    cases b with
    | u32 b => rwa [same_u32.1 h]
    | _ => cases h
  | i32 a =>
    cases b with
    | i32 b => rwa [same_i32.1 h]
    | _ => cases h
  | bool a =>
    cases b with
    | bool b => rwa [same_bool.1 h]
    | _ => cases h
  | str a =>
    cases b with
    | str b => rwa [same_str.1 h]
    | _ => cases h
  | f64 a =>
    cases b with
    | f64 b =>
      cases c with
      | f64 c => exact F64.beq_trans h h'
      | _ => cases h'
    | _ => cases h
  | triple r g v =>
    cases b with
    | triple r' g' b' =>
      cases c with
      | triple r'' g'' b'' =>
        rw [same_triple] at *
        exact ⟨F64.beq_trans h.1 h'.1, F64.beq_trans h.2.1 h'.2.1, F64.beq_trans h.2.2 h'.2.2⟩
      | _ => cases h'
    | _ => cases h

theorem portalColorScheme_inj {a b : ColorScheme} : portalColorScheme a = portalColorScheme b ↔ a = b := by
  cases a <;> cases b <;> decide

theorem gtkColorScheme_inj {a b : ColorScheme} : gtkColorScheme a = gtkColorScheme b ↔ a = b := by
  cases a <;> cases b <;> decide

theorem portalContrast_inj {a b : Contrast} : portalContrast a = portalContrast b ↔ a = b := by
  cases a <;> cases b <;> decide

theorem toUInt32_inj {a b : Bool} : a.toUInt32 = b.toUInt32 ↔ a = b := by
  cases a <;> cases b <;> decide

theorem toInt32_inj {a b : UInt32} : a.toInt32 = b.toInt32 ↔ a = b := by
  constructor
  · intro h
    exact congrArg Int32.toUInt32 h
  · exact congrArg _

/-! ## What there is at each key -/

/-- Every setting there can be. -/
def settingLabels : List (String × String) :=
  [ (appearanceNamespace, colorSchemeKey), (gtkInterfaceNamespace, colorSchemeKey),
    (appearanceNamespace, accentColorKey), (appearanceNamespace, contrastKey),
    (appearanceNamespace, reducedMotionKey), (gtkInterfaceNamespace, "enable-animations"),
    (gtkInterfaceNamespace, "font-name"), (gtkInterfaceNamespace, "monospace-font-name"),
    (gtkInterfaceNamespace, "text-scaling-factor"), (gtkInterfaceNamespace, "icon-theme"),
    (gtkInterfaceNamespace, "cursor-theme"), (gtkInterfaceNamespace, "cursor-size") ]

def accentLabel : String × String := (appearanceNamespace, accentColorKey)

variable {previous current : DesktopPreferences}

theorem map_label_ite {c : Prop} [Decidable c] (entries : List Setting) :
    ((if c then entries else []).map label).Sublist (entries.map label) := by
  split
  · exact List.Sublist.refl _
  · exact List.nil_sublist _

/-- The change signals come in the order of `settingLabels`. -/
theorem changedSettings_sublist (previous current : DesktopPreferences) :
    ((changedSettings previous current).map label).Sublist settingLabels := by
  unfold changedSettings
  simp only [List.map_append]
  exact (((((((((map_label_ite _).append (map_label_ite _)).append (map_label_ite _)).append (map_label_ite _)).append
    (map_label_ite _)).append (map_label_ite _)).append (map_label_ite _)).append (map_label_ite _)).append
      (map_label_ite _)).append (map_label_ite _)

theorem settingLabels_nodup : settingLabels.Nodup := by decide +kernel

theorem changedSettings_nodup (previous current : DesktopPreferences) :
    ((changedSettings previous current).map label).Nodup :=
  (changedSettings_sublist previous current).nodup settingLabels_nodup

/-- The labels without an accent colour, and with one. -/
theorem settingEntries_labels (preferences : DesktopPreferences) :
    ((settingEntries preferences).map label).Perm
      (if preferences.accentColor.isSome then settingLabels else settingLabels.erase accentLabel) := by
  unfold settingEntries
  cases preferences.accentColor with
  | none =>
    simp only [accentEntries, List.map_append, List.map_cons, List.map_nil, label, Option.isSome_none]
    decide +kernel
  | some accent =>
    simp only [accentEntries, List.map_append, List.map_cons, List.map_nil, label, Option.isSome_some]
    decide +kernel

theorem settingEntries_nodup (preferences : DesktopPreferences) : ((settingEntries preferences).map label).Nodup := by
  rw [(settingEntries_labels preferences).nodup_iff]
  split
  · exact settingLabels_nodup
  · exact settingLabels_nodup.erase _

theorem mem_settingEntries_labels {preferences : DesktopPreferences} {l : String × String} :
    l ∈ (settingEntries preferences).map label ↔
      l ∈ settingLabels ∧ (l = accentLabel → preferences.accentColor.isSome = true) := by
  rw [(settingEntries_labels preferences).mem_iff]
  split
  · next hsome => exact ⟨fun h => ⟨h, fun _ => hsome⟩, And.left⟩
  · next hnone =>
    rw [settingLabels_nodup.mem_erase_iff]
    exact ⟨fun h => ⟨h.2, fun hl => absurd hl h.1⟩, fun h => ⟨fun hl => hnone (h.2 hl), h.1⟩⟩

/-- The three values of one key. -/
abbrev Changes (previous current : DesktopPreferences) (space key : String) : Prop :=
  Change Same unsetAccent (valueAt (changedSettings previous current) space key) (lookup previous space key)
    (lookup current space key)

theorem spelled : appearanceNamespace = "org.freedesktop.appearance" ∧
    gtkInterfaceNamespace = "org.gnome.desktop.interface" ∧ colorSchemeKey = "color-scheme" ∧
    accentColorKey = "accent-color" ∧ contrastKey = "contrast" ∧ reducedMotionKey = "reduced-motion" :=
  ⟨rfl, rfl, rfl, rfl, rfl, rfl⟩

@[simp] theorem valueAt_ite {c : Prop} [Decidable c] (entries rest : List Setting) (space key : String) :
    valueAt (if c then entries else rest) space key =
      if c then valueAt entries space key else valueAt rest space key := by
  split <;> rfl

@[simp] theorem valueAt_accentEntries (accent : Option AccentColor) (space key : String) :
    valueAt (accentEntries accent) space key =
      if appearanceNamespace = space ∧ accentColorKey = key then accent.map normalized else none := by
  cases accent with
  | none => simp [accentEntries]
  | some accent => simp [accentEntries]

/-- A key that is always there, and sent where its field is another. -/
theorem changes_of {space key : String} {v : DesktopPreferences → OwnedValue} {c : Prop} [Decidable c]
    (hd : valueAt (changedSettings previous current) space key = if c then some (v current) else none)
    (hp : ∀ p, lookup p space key = some (v p)) (hc : c ↔ ¬ Same (v previous) (v current))
    (hself : Same (v current) (v current)) : Changes previous current space key := by
  rw [Changes, hd, hp, hp]
  split
  · next h => exact .changed (hc.1 h) hself
  · next h => exact .kept (not_not.1 fun hother => h (hc.2 hother))

theorem changes_accent : Changes previous current appearanceNamespace accentColorKey := by
  have hd : valueAt (changedSettings previous current) appearanceNamespace accentColorKey =
      if previous.accentColor ≠ current.accentColor then some ((current.accentColor.map normalized).getD unsetAccent)
      else none := by
    simp [changedSettings, spelled]
  have hp : ∀ p, lookup p appearanceNamespace accentColorKey = p.accentColor.map normalized := by
    intro p
    simp [lookup, settingEntries, spelled]
  rw [Changes, hd, hp, hp]
  cases hb : previous.accentColor with
  | none =>
    cases ha : current.accentColor with
    | none => exact .absent
    | some after => exact .appeared (same_normalized.2 rfl)
  | some before =>
    cases ha : current.accentColor with
    | none => exact .removed
    | some after =>
      split
      · next h => exact .changed (fun hsame => h (congrArg some (same_normalized.1 hsame))) (same_normalized.2 rfl)
      · next h => exact .kept (same_normalized.2 (Option.some.inj (not_not.1 h)))

theorem changes_label (hcurrent : current.textScale.isNaN = false) {space key : String}
    (hlabel : (space, key) ∈ settingLabels) : Changes previous current space key := by
  simp only [settingLabels, List.mem_cons, Prod.mk.injEq, List.not_mem_nil, or_false] at hlabel
  rcases hlabel with ⟨rfl, rfl⟩ | ⟨rfl, rfl⟩ | ⟨rfl, rfl⟩ | ⟨rfl, rfl⟩ | ⟨rfl, rfl⟩ | ⟨rfl, rfl⟩ | ⟨rfl, rfl⟩ |
    ⟨rfl, rfl⟩ | ⟨rfl, rfl⟩ | ⟨rfl, rfl⟩ | ⟨rfl, rfl⟩ | ⟨rfl, rfl⟩
  · apply changes_of (v := fun p => .u32 (portalColorScheme p.colorScheme)) (c := previous.colorScheme ≠ current.colorScheme) <;>
      simp [changedSettings, lookup, settingEntries, spelled, portalColorScheme_inj]
  · apply changes_of (v := fun p => .str (gtkColorScheme p.colorScheme)) (c := previous.colorScheme ≠ current.colorScheme) <;>
      simp [changedSettings, lookup, settingEntries, spelled, gtkColorScheme_inj]
  · exact changes_accent
  · apply changes_of (v := fun p => .u32 (portalContrast p.contrast)) (c := previous.contrast ≠ current.contrast) <;>
      simp [changedSettings, lookup, settingEntries, spelled, portalContrast_inj]
  · apply changes_of (v := fun p => .u32 p.reducedMotion.toUInt32) (c := previous.reducedMotion ≠ current.reducedMotion) <;>
      simp [changedSettings, lookup, settingEntries, spelled, toUInt32_inj]
  · apply changes_of (v := fun p => .bool !p.reducedMotion) (c := previous.reducedMotion ≠ current.reducedMotion) <;>
      simp [changedSettings, lookup, settingEntries, spelled]
  · apply changes_of (v := fun p => .str p.fontName) (c := previous.fontName ≠ current.fontName) <;>
      simp [changedSettings, lookup, settingEntries, spelled]
  · apply changes_of (v := fun p => .str p.monospaceFontName) (c := previous.monospaceFontName ≠ current.monospaceFontName) <;>
      simp [changedSettings, lookup, settingEntries, spelled]
  · have hself : (current.textScale == current.textScale) = true := F64.beq_self.2 hcurrent
    -- a double that is not itself would be sent, and not be what was sent
    apply changes_of (v := fun p => .f64 p.textScale) (c := (previous.textScale != current.textScale) = true) <;>
      simp [changedSettings, lookup, settingEntries, spelled, bne, hself]
  · apply changes_of (v := fun p => .str p.iconTheme) (c := previous.iconTheme ≠ current.iconTheme) <;>
      simp [changedSettings, lookup, settingEntries, spelled]
  · apply changes_of (v := fun p => .str p.cursorTheme) (c := previous.cursorTheme ≠ current.cursorTheme) <;>
      simp [changedSettings, lookup, settingEntries, spelled]
  · apply changes_of (v := fun p => .i32 p.cursorSize.toInt32) (c := previous.cursorSize ≠ current.cursorSize) <;>
      simp [changedSettings, lookup, settingEntries, spelled, toInt32_inj]

/-- Whatever the key: the signals have what changed there, and nothing else. -/
theorem changes (hcurrent : current.textScale.isNaN = false) (space key : String) :
    Changes previous current space key := by
  by_cases hlabel : (space, key) ∈ settingLabels
  · exact changes_label hcurrent hlabel
  · have hp : ∀ p, lookup p space key = none := fun p =>
      valueAt_eq_none.2 fun v hin => hlabel (mem_settingEntries_labels.1 (List.mem_map.2 ⟨_, hin, rfl⟩)).1
    have hd : valueAt (changedSettings previous current) space key = none :=
      valueAt_eq_none.2 fun v hin =>
        hlabel ((changedSettings_sublist previous current).subset (List.mem_map.2 ⟨_, hin, rfl⟩))
    rw [Changes, hd, hp, hp]
    exact .absent

/-! ## The difference -/

theorem readAllValues_eq (preferences : DesktopPreferences) (namespaces : List String) :
    readAllValues preferences namespaces =
      putAll ∅ ((settingEntries preferences).filter fun e => wanted namespaces e.1) := by
  rw [readAllValues, putAll, List.foldl_filter]

/-- An accent colour that is gone, as a client is told. -/
def goneAccent (previous current : DesktopPreferences) : List Setting :=
  if previous.accentColor.isSome ∧ current.accentColor = none then [(appearanceNamespace, accentColorKey, unsetAccent)]
  else []

/-- `ReadAll` of the current preferences, with a removed accent colour out of range. -/
def represented (previous current : DesktopPreferences) (namespaces : List String) : Nested String String OwnedValue :=
  putAll (readAllValues current namespaces) ((goneAccent previous current).filter fun e => wanted namespaces e.1)

theorem represented_nodup (previous current : DesktopPreferences) :
    ((settingEntries current ++ goneAccent previous current).map label).Nodup := by
  rw [List.map_append, List.nodup_append']
  refine ⟨settingEntries_nodup current, ?_, ?_⟩
  · unfold goneAccent
    split
    · exact List.nodup_singleton _
    · exact List.nodup_nil
  · unfold goneAccent
    split
    · next hgone =>
      rintro l hin hlabel
      obtain rfl : l = accentLabel := List.mem_singleton.1 hlabel
      have hsome := (mem_settingEntries_labels.1 hin).2 rfl
      rw [hgone.2] at hsome
      cases hsome
    · exact fun _ _ => List.not_mem_nil

/-- What is gone, by what was there. -/
theorem valueAt_goneAccent {space key : String} (hnone : lookup current space key = none) :
    valueAt (goneAccent previous current) space key =
      if (lookup previous space key).isSome then some unsetAccent else none := by
  have hcurrent : (space, key) ∉ (settingEntries current).map label := by
    rw [← valueAt_isSome, show valueAt _ space key = none from hnone]
    exact Bool.false_ne_true
  have hprevious : (lookup previous space key).isSome = true ↔ (space, key) ∈ (settingEntries previous).map label :=
    valueAt_isSome
  rw [mem_settingEntries_labels] at hcurrent hprevious
  by_cases haccent : (space, key) = accentLabel
  · cases haccent
    have hin : accentLabel ∈ settingLabels := by decide +kernel
    simp_all [goneAccent, accentLabel]
  · have hout : (space, key) ∉ settingLabels := fun hin => hcurrent ⟨hin, fun h => absurd h haccent⟩
    have hother : ¬ (appearanceNamespace = space ∧ accentColorKey = key) := fun h => haccent (Prod.ext h.1.symm h.2.symm)
    rw [if_neg fun h => hout (hprevious.1 h).1]
    simp [goneAccent, hother]

theorem nodup_filter {entries : List Setting} (h : (entries.map label).Nodup) (p : Setting → Bool) :
    ((entries.filter p).map label).Nodup :=
  h.sublist (List.filter_sublist.map label)

/-- The change signals are the difference: laid over what `ReadAll` returned before, for any namespaces (none
at all is all of them), they give what it returns now; no key is sent twice; and a key is sent exactly when its
value is another one. -/
theorem changedSettings_difference (previous current : DesktopPreferences) (hnumber : current.textScale.isNaN = false) :
    (∀ namespaces, Agree Same
      (putAll (readAllValues previous namespaces)
        ((changedSettings previous current).filter fun e => wanted namespaces e.1))
      (represented previous current namespaces)) ∧
    ((changedSettings previous current).map label).Nodup ∧
    ∀ space key, (∃ value, (space, key, value) ∈ changedSettings previous current) ↔
      ¬ Option.Rel Same (lookup previous space key) (lookup current space key) := by
  have hnodup := changedSettings_nodup previous current
  refine ⟨fun namespaces => ?_, hnodup, fun space key => ?_⟩
  · have hrepresented : represented previous current namespaces =
        putAll ∅ ((settingEntries current ++ goneAccent previous current).filter fun e => wanted namespaces e.1) := by
      rw [represented, readAllValues_eq, List.filter_append, putAll, putAll, putAll, List.foldl_append]
    rw [hrepresented, readAllValues_eq]
    refine agree_putAll (nodup_filter (settingEntries_nodup previous) _) (nodup_filter hnodup _)
      (nodup_filter (represented_nodup previous current) _) fun space key => ?_
    simp only [valueAt_filter, valueAt_append]
    cases wanted namespaces space with
    | false => exact .none
    | true =>
      have hoverlaid := (@changes previous current hnumber space key).overlaid
        (same_triple.2 (by decide))
      have hgone : (lookup current space key).or (valueAt (goneAccent previous current) space key) =
          (lookup current space key).or (if (lookup previous space key).isSome then some unsetAccent else none) := by
        cases hcurrent : lookup current space key with
        | some _ => rfl
        | none => rw [valueAt_goneAccent hcurrent]
      rw [← hgone] at hoverlaid
      exact hoverlaid
  · rw [← (changes hnumber space key).isSome_iff, Option.isSome_iff_exists]
    exact exists_congr fun value => mem_iff_valueAt hnodup

/-! ## A removed accent colour -/

/-- `DesktopPreferences::default`. -/
def defaultPreferences : DesktopPreferences where
  colorScheme := .system
  accentColor := none
  contrast := .normal
  reducedMotion := false
  fontName := "Sans 10"
  monospaceFontName := "Monospace 10"
  textScale := .ofRatio 1 1
  iconTheme := "hicolor"
  cursorTheme := "default"
  cursorSize := 24

def bluePreferences : DesktopPreferences := { defaultPreferences with accentColor := some ⟨51, 102, 255⟩ }

theorem changedSettings_difference_removed : defaultPreferences.textScale.isNaN = false ∧
    (∀ namespaces, Agree Same
      (putAll (readAllValues bluePreferences namespaces)
        ((changedSettings bluePreferences defaultPreferences).filter fun e => wanted namespaces e.1))
      (represented bluePreferences defaultPreferences namespaces)) ∧
    ((changedSettings bluePreferences defaultPreferences).map label).Nodup ∧
    ∀ space key, (∃ value, (space, key, value) ∈ changedSettings bluePreferences defaultPreferences) ↔
      ¬ Option.Rel Same (lookup bluePreferences space key) (lookup defaultPreferences space key) := by
  have hnumber : defaultPreferences.textScale.isNaN = false := by decide
  exact ⟨hnumber, changedSettings_difference bluePreferences defaultPreferences hnumber⟩

example : changedSettings bluePreferences defaultPreferences = [(appearanceNamespace, accentColorKey, unsetAccent)] := by
  decide

/-! ## A client -/

/-- The appearance of a prompter has all that the preferences of a dialog have. -/
theorem promptAppearance_inj {p q : Portal.DesktopPreferences} : promptAppearance p = promptAppearance q ↔ p = q := by
  obtain ⟨scheme, accent, contrast, motion⟩ := p
  obtain ⟨scheme', accent', contrast', motion'⟩ := q
  have hscheme : (promptAppearance ⟨scheme, accent, contrast, motion⟩).colorScheme =
      (promptAppearance ⟨scheme', accent', contrast', motion'⟩).colorScheme ↔ scheme = scheme' := by
    cases scheme <;> cases scheme' <;> simp [promptAppearance]
  have hcontrast : decide (contrast = .high) = decide (contrast' = .high) ↔ contrast = contrast' := by
    cases contrast <;> cases contrast' <;> decide
  have haccent : Function.Injective fun accent : AccentColor =>
      (⟨accent.red, accent.green, accent.blue⟩ : PromptAccent) := by
    rintro ⟨r, g, b⟩ ⟨r', g', b'⟩ ⟨⟩
    rfl
  rw [promptAppearance, promptAppearance, PromptAppearance.mk.injEq, Portal.DesktopPreferences.mk.injEq]
  exact and_congr hscheme (and_congr (Option.map_injective haccent).eq_iff (and_congr hcontrast Iff.rfl))

/-- The daemon's cards are restyled exactly when that is another one. -/
theorem updateAndEmit_restyles (store preferences : DesktopPreferences) :
    (updateAndEmit store preferences).restyles = true ↔
      promptAppearance store.toDesktopPreferences ≠ promptAppearance preferences.toDesktopPreferences := by
  obtain ⟨⟨scheme, accent, contrast, motion⟩, _⟩ := store
  obtain ⟨⟨scheme', accent', contrast', motion'⟩, _⟩ := preferences
  rw [ne_eq, promptAppearance_inj, Portal.DesktopPreferences.mk.injEq]
  simp only [updateAndEmit, Bool.or_eq_true, decide_eq_true_eq, ne_eq, not_and_or, or_assoc]

/-- A client that read all settings, and the snapshot that is stored. -/
structure Client where
  held : Nested String String OwnedValue
  store : DesktopPreferences

namespace Client

def connect (store : DesktopPreferences) : Client := ⟨readAllValues store [], store⟩

/-- It is told what changed. -/
def update (c : Client) (preferences : DesktopPreferences) : Client where
  held := putAll c.held (updateAndEmit c.store preferences).signals
  store := (updateAndEmit c.store preferences).store

/-- It has the settings of the snapshot, with a removed accent colour out of range. -/
def Current (c : Client) : Prop := Follows Same unsetAccent c.held (lookup c.store)

theorem current_connect {store : DesktopPreferences} (hnumber : store.textScale.isNaN = false) :
    (connect store).Current := by
  intro space key
  have hself : ∀ v, lookup store space key = some v → Same v v := by
    intro v hv
    have hchange := @changes store store hnumber space key
    rw [Changes, hv] at hchange
    generalize valueAt _ space key = diff at hchange
    cases hchange with
    | kept h => exact h
    | changed _ h => exact h
  have hfind : find (connect store).held space key = lookup store space key := by
    rw [connect, readAllValues_eq, find_putAll (nodup_filter (settingEntries_nodup store) _), valueAt_filter]
    exact Option.or_none
  rw [hfind]
  change Option.Rel Same (lookup store space key) (lookup store space key) ∨ _
  cases hv : lookup store space key with
  | some v => exact .inl (.some (hself v hv))
  | none => exact .inl .none

theorem Current.update {c : Client} (h : c.Current) {preferences : DesktopPreferences}
    (hnumber : preferences.textScale.isNaN = false) : (c.update preferences).Current :=
  Follows.putAll h same_trans (changedSettings_nodup c.store preferences) (changes hnumber)

/-- After any updates the client has the current settings. -/
theorem current_updates {store : DesktopPreferences} {updates : List DesktopPreferences}
    (hstore : store.textScale.isNaN = false) (hupdates : ∀ p ∈ updates, p.textScale.isNaN = false) :
    (updates.foldl update (connect store)).Current := by
  have hrun : ∀ c : Client, c.Current → (updates.foldl update c).Current := by
    clear hstore
    induction updates with
    | nil => exact fun c h => h
    | cons preferences updates ih =>
      intro c h
      have hnumber := hupdates preferences (List.mem_cons_self ..)
      exact ih (fun p hp => hupdates p (List.mem_cons_of_mem _ hp)) (c.update preferences) (h.update hnumber)
  exact hrun (connect store) (current_connect hstore)

end Client

end AtriumPortal.Portal.Settings
