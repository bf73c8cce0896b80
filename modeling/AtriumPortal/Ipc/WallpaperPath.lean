import AtriumPortal.Lib.Canonical
/-!
# Wallpaper paths

`schema.rs`: the rule for the path of a SetWallpaper request, which the client checks before
it writes anything.
-/
open AtriumPortal.Lib.Path

namespace AtriumPortal.Ipc

def maxWallpaperPathBytes : Nat := 4096

def validWallpaperPath (path : Bytes) : Bool :=
  if !isAbsolute path || maxWallpaperPathBytes < path.length || path.contains 0 then false
  else if (components path).any fun component => component = .curDir || component = .parentDir then false
  else collect (components path) = path

/-- Accepted are the canonical paths that are short enough and have no NUL. -/
theorem validWallpaperPath_iff (path : Bytes) :
    validWallpaperPath path = true ↔ path.length ≤ maxWallpaperPathBytes ∧ 0 ∉ path ∧ Canonical path := by
  unfold validWallpaperPath
  constructor
  · intro h
    split at h
    · cases h
    · next hbounded =>
      split at h
      · cases h
      · next hdots =>
        simp only [Bool.or_eq_true, not_or, Bool.not_eq_true, Bool.not_eq_false', decide_eq_true_eq, Nat.not_lt,
          List.contains_eq_mem] at hbounded
        obtain ⟨⟨habs, hlength⟩, hnul⟩ := hbounded
        have hparent : .parentDir ∉ components path := by
          intro hin
          exact hdots (List.any_eq_true.2 ⟨_, hin, by decide⟩)
        exact ⟨hlength, hnul, (collect_components_iff habs hparent).1 (of_decide_eq_true h)⟩
  · rintro ⟨hlength, hnul, hcanonical⟩
    obtain ⟨habs, hdots⟩ := hcanonical.components
    have hparent : .parentDir ∉ components path := fun hin => (hdots _ hin).2 rfl
    rw [if_neg (by simp [habs, hlength, hnul]), if_neg ?_]
    · exact decide_eq_true ((collect_components_iff habs hparent).2 hcanonical)
    · rw [List.any_eq_true]
      rintro ⟨c, hc, h⟩
      simp [hdots c hc] at h

/-- A file of an accepted directory is accepted, if the path is not too long. -/
theorem validWallpaperPath_join {dir name : Bytes} (hdir : validWallpaperPath dir = true) (hname : Proper name)
    (hnul : 0 ∉ name) (hlength : dir.length + 1 + name.length ≤ maxWallpaperPathBytes) :
    validWallpaperPath (join dir name) = true := by
  obtain ⟨-, hdirNul, hcanonical⟩ := (validWallpaperPath_iff dir).1 hdir
  refine (validWallpaperPath_iff _).2 ⟨?_, ?_, hcanonical.join hname⟩
  · rw [join, if_neg (by simp [hname.relative])]
    split <;> simp only [List.length_append, List.length_cons] <;> omega
  · have hslash : (0 : UInt8) ≠ slash := by decide
    rw [join, if_neg (by simp [hname.relative])]
    split <;> simp [hdirNul, hnul, hslash]

example : validWallpaperPath (bytes "/run/user/1000/atrium-portal/wallpaper/current.png") = true := by decide +kernel

example : ∀ path ∈ ["wall.png", "/run/../etc/wall.png", "/run/./wall.png", "/run//wall.png", "/run/wall.png/"],
    validWallpaperPath (bytes path) = false := by decide +kernel

end AtriumPortal.Ipc
