import AtriumPortal.ScreenCast.Consent
import AtriumPortal.ScreenCast.Durable
/-!
# A compositor that does not answer

A SelectSources call with a restore token prunes the stored tokens against the
outputs it was told. Where the version query or the enumeration fails, the call goes
on with the oldest protocol or with no outputs, so every token for an output looks
unservable. `spares_iff` says when such a call erases nothing.
-/
open AtriumPortal.Lib.Interact AtriumPortal.Lib.Runs AtriumPortal.Lib.Shelves

namespace AtriumPortal.ScreenCast.SelectSources

/-- The version query, or an enumeration of the outputs, failed. -/
def Failed (t : List (Sigma Action.Answer)) : Prop :=
  (∃ error, ⟨.protocolVersion, .error error⟩ ∈ t) ∨ ∃ error, ⟨.enumerateOutputs, .error error⟩ ∈ t

/-- The action keeps every mode-1 token, in the store and in its file. A new grant of the call may
take the place of the oldest in a full list. -/
structure Spares (x : Step Desk Action Action.Answer) : Prop where
  disk : ∀ entry ∈ x.before.store.disk, entry ∈ x.after.store.disk ∨
    ∃ mode owner selection, x.act = .issue mode owner selection ∧ maxDiskTokens ≤ x.before.store.disk.length
  file : x.after.store.file = x.before.store.file ∨ ∃ mode owner selection, x.act = .issue mode owner selection

variable {json : Json} {path : String}

/-- Another application has a token for an output. -/
def remembered : Desk :=
  { opened "/s" "app" with
    store := ⟨some "/data", [⟨"t", ⟨"other", .output "HDMI-A-1", 1⟩⟩], ∅,
      some (StoreFile.toVec ⟨storeVersion, [⟨"t", ⟨"other", .output "HDMI-A-1", 1⟩⟩]⟩)⟩ }

end AtriumPortal.ScreenCast.SelectSources
