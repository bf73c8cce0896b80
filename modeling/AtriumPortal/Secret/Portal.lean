import AtriumPortal.Portal.Tracker
import AtriumPortal.Secret.Native
/-!
# The served secret interface

`portal.rs`: the secret of an application comes from the daemon and goes into a descriptor of the
caller's, never onto the bus.
-/
open AtriumPortal.Lib
open AtriumPortal.Lib.Path (Bytes)
open AtriumPortal.Portal (PortalResponse RequestTracker)

namespace AtriumPortal.Secret

/-- The caller's descriptor: whether it can be cloned, what goes into it, and what its
metadata (whether it is a regular file) and its sync answer. -/
structure Descriptor where
  cloned : Except Stream.Error Unit
  writer : Stream.Writer
  metadata : Except Stream.Error Bool
  syncAll : Except Stream.Error Unit

/-- Only a regular file is synced. -/
def Descriptor.sync (fd : Descriptor) : Except Stream.Error Unit :=
  match fd.metadata with
  | .ok true => fd.syncAll
  | .ok false => .ok ()
  | .error error => .error error

/-- The secret goes into the descriptor, which is synced whether the write failed or not. -/
def Descriptor.deliver (fd : Descriptor) (secret : Bytes) : PortalResponse × Descriptor :=
  match fd.writer.writeAll secret, fd.sync with
  | (.error _, writer), _ => (⟨2, []⟩, { fd with writer := writer })
  | (.ok (), writer), .error _ => (⟨2, []⟩, { fd with writer := writer })
  | (.ok (), writer), .ok () => (⟨0, []⟩, { fd with writer := writer })

/-- A delivery is answered with 0 when all of the secret is in the descriptor. -/
theorem Descriptor.deliver_code {fd : Descriptor} {secret : Bytes} (h : (fd.deliver secret).1.code = 0) :
    (fd.deliver secret).2.writer.written = fd.writer.written ++ secret := by
  unfold deliver at h ⊢
  rcases hwrite : fd.writer.writeAll secret with ⟨_ | _, writer⟩
  · rw [hwrite] at h
    cases h
  · rcases hsync : fd.sync with _ | _
    · rw [hwrite, hsync] at h
      cases h
    · exact (Stream.Writer.writeAll_written hwrite).1

/-- The interface and what is around it: `XDG_RUNTIME_DIR`, and what a connect to a path gives. -/
structure SecretIface where
  tracker : RequestTracker
  runtimeDir : Option Bytes
  connect : Bytes → Except Stream.Error Socket

namespace SecretIface

section

variable (utf8Error : Bytes → String)

/-- `SigilConnection::get_application_secret` at the default socket. -/
def getApplicationSecret (iface : SecretIface) (socketPath : Bytes) (appId : String) : Except NativeError Bytes :=
  (Secret.getApplicationSecret utf8Error (iface.connect socketPath) "atrium.portal.Secret/v1" appId "master-secret").1

def run (iface : SecretIface) (path appId : String) (fd : Descriptor) : PortalResponse × Descriptor :=
  if iface.tracker.wasClosed path then (⟨1, []⟩, fd)
  else
    match fd.cloned with
    | .error _ => (⟨2, []⟩, fd)
    | .ok () =>
      match connectDefault iface.runtimeDir with
      | .error _ => (⟨2, []⟩, fd)
      | .ok socketPath =>
        match iface.getApplicationSecret utf8Error socketPath appId with
        | .ok secret => fd.deliver secret
        | .error .locked => (⟨1, []⟩, fd)
        | .error .cancelled => (⟨1, []⟩, fd)
        | .error _ => (⟨2, []⟩, fd)

/-- `retrieve_secret`, by how its registration ends. -/
def retrieveSecret (iface : SecretIface) (registered : Except String Unit) (handle appId : String) (fd : Descriptor) :
    Except String PortalResponse × Descriptor :=
  match registered with
  | .error error => (.error error, fd)
  | .ok () => (.ok (iface.run utf8Error handle appId fd).1, (iface.run utf8Error handle appId fd).2)

end

/-- The reply is 0 after one exchange with the daemon whose secret is in the descriptor. -/
theorem run_code {utf8Error : Bytes → String} {iface : SecretIface} {path appId : String} {fd : Descriptor}
    (h : (iface.run utf8Error path appId fd).1.code = 0) : ∃ socketPath secret,
    iface.getApplicationSecret utf8Error socketPath appId = .ok secret ∧
      (iface.run utf8Error path appId fd).2.writer.written = fd.writer.written ++ secret := by
  unfold run at h ⊢
  split at h
  · cases h
  · next hopen =>
    rw [if_neg hopen]
    cases hcloned : fd.cloned with
    | error error =>
      rw [hcloned] at h
      cases h
    | ok cloned =>
      cases hsocket : connectDefault iface.runtimeDir with
      | error error =>
        rw [hcloned, hsocket] at h
        cases h
      | ok socketPath =>
        simp only [hcloned, hsocket] at h ⊢
        cases hsecret : iface.getApplicationSecret utf8Error socketPath appId with
        | error error =>
          rw [hsecret] at h
          cases error <;> cases h
        | ok secret =>
          rw [hsecret] at h
          exact ⟨socketPath, secret, hsecret, Descriptor.deliver_code h⟩

end SecretIface

end AtriumPortal.Secret
