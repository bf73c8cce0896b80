import AtriumPortal.Ipc.Capture
import AtriumPortal.Portal.Files
/-!
# Screenshots and color picks

`screenshot.rs`: what the options ask for, and the task that serves one job. It looks
at the request's tracker, talks to the compositor through a `PortalCapture` of its
own, and keeps the capture in the cache directory.
-/
open AtriumPortal.Lib.Interact AtriumPortal.Lib.Path AtriumPortal.Portal

namespace AtriumPortal.Screenshot

def screenshotTargetArea : Nat := 4

inductive ScreenshotTarget where
  | area
  deriving DecidableEq, Repr

structure ScreenshotOptions where
  interactive : Bool
  target : Option ScreenshotTarget
  permissionStoreChecked : Bool
  deriving DecidableEq, Repr

/-- One request as its bus method queues it. -/
inductive CaptureJob where
  | screenshot (requestPath token appId : String) (options : ScreenshotOptions)
  | pickColor (requestPath appId : String)
  deriving DecidableEq, Repr

/-! ## Options -/

/-- The value under each key of the options argument. -/
abbrev OptionsMap : Type := String → Option PortalValue

def bool? : PortalValue → Option Bool
  | .bool value => some value
  | _ => none

def u32? : PortalValue → Option Nat
  | .u32 value => some value
  | _ => none

def parseTarget : Option PortalValue → Except String (Option ScreenshotTarget)
  | none => .ok none
  | some value =>
    match u32? value with
    | none => .error "Screenshot target must be an unsigned integer"
    | some target =>
      if target = screenshotTargetArea then .ok (some .area)
      else .error s!"Screenshot target {target} is not advertised by this backend"

def parseOptions (options : OptionsMap) : Except String ScreenshotOptions := do
  let target ← parseTarget (options "target")
  return {
    interactive := ((options "interactive").bind bool?).getD false
    target := target
    permissionStoreChecked := ((options "permission_store_checked").bind bool?).getD false }

def sanitizeToken (token : List Char) : List Char := token.map fun c => if c.isAlphanum || c == '_' then c else '_'

/-- The last element of the handle. -/
def captureToken (handle : String) : String :=
  match (handle.toList.splitOn '/').getLast? with
  | some (c :: tail) => String.ofList (sanitizeToken (c :: tail))
  | _ => "capture"

/-! ## Files -/

def cacheDirFrom (cache runtime : Option Bytes) : Option Bytes :=
  ((cache.filter (· ≠ [])).or (runtime.filter (· ≠ []))).map (join · (bytes "xdg-desktop-portal-atrium"))

/-- `screenshot-<millis>-<token>-<nonce>.png`. -/
def captureName (millis : Nat) (token : String) (nonce : Bytes) : Bytes :=
  bytes s!"screenshot-{millis}-{token}-" ++ nonce ++ bytes ".png"

def unreserved (byte : UInt8) : Bool :=
  let c := Char.ofNat byte.toNat
  (byte.toNat < 128 && c.isAlphanum) || c == '/' || c == '-' || c == '.' || c == '_' || c == '~'

def hexDigits (byte : UInt8) : List Char :=
  [Nat.digitChar (byte.toNat / 16), Nat.digitChar (byte.toNat % 16)].map Char.toUpper

/-- Percent-encode every byte outside the unreserved set plus `/`. -/
def fileUri (path : Bytes) : String :=
  "file://" ++ String.ofList (path.flatMap fun byte =>
    if unreserved byte then [Char.ofNat byte.toNat] else '%' :: hexDigits byte)

/-! ## The task -/

inductive Action where
  /-- The queue and the dispatcher take the job. -/
  | admitted
  | wasClosed
  | ipc (a : Ipc.Capture.Action)
  | envVar (name : String)
  | millis
  | file (a : Files.Action)
  deriving DecidableEq

@[reducible] def Action.Answer : Action → Type
  | .admitted => Bool
  | .wasClosed => Bool
  | .ipc a => a.Answer
  | .envVar _ => Option Bytes
  | .millis => Nat
  | .file a => a.Answer

abbrev Work (R : Type) : Type := Prog Action Action.Answer R

/-- The `uri` of a screenshot; a `color` is reported in 255ths. -/
inductive CaptureValue where
  | uri (uri : String)
  | color (rgb : Nat × Nat × Nat)
  deriving DecidableEq, Repr

structure CaptureResponse where
  code : Nat
  results : List (String × CaptureValue)
  deriving DecidableEq, Repr

inductive CaptureError where
  | noCacheDir
  | ipc (error : Ipc.IoError)
  | file (error : String)
  deriving DecidableEq, Repr

open Ipc.Capture (PortalCapture Op Returned Value Outcome)

def capture (c : PortalCapture) (op : Op) : Work (Outcome Returned) := (op.run c).lift .ipc fun _ b => b

/-- What a returned value is, wherever it came from. -/
def value : Returned → Value
  | .known value => value
  | .replied answered => answered.value

def writeCapture (dir : Bytes) (token : String) (png : List UInt8) : Work (Except String Bytes) :=
  .ask .millis fun millis =>
    .ask (.file .randomSuffix) fun nonce =>
      (Files.writeAtomic dir (captureName millis token nonce) png).lift .file fun _ b => b

def captureAndWrite (c : PortalCapture) (token : String) (region : Option Ipc.Rect) :
    Work (Except CaptureError String) :=
  .ask (.envVar "XDG_CACHE_HOME") fun cache =>
    .ask (.envVar "XDG_RUNTIME_DIR") fun runtime =>
      match cacheDirFrom cache runtime with
      | none => .ret (.error .noCacheDir)
      | some dir =>
        (capture c (region.elim .capturePng .captureRegionPng)).bind fun
          | (.error error, _) => .ret (.error (.ipc error))
          | (.ok returned, _) =>
            match value returned with
            | .png png => (writeCapture dir token png).bind fun
              | .error error => .ret (.error (.file error))
              | .ok path => .ret (.ok (fileUri path))
            -- The capture operations return nothing else.
            | _ => .ret (.error (.ipc (.other "")))

/-- The compositor's region picker decides what to capture; an error is a response code. -/
def pickRegion (options : ScreenshotOptions) (c : PortalCapture) :
    Work (Except Nat (Option Ipc.Rect) × PortalCapture) :=
  if options.interactive || options.target = some .area then
    (capture c (.pick .region)).bind fun
      | (.error _, c) => .ret (.error 2, c)
      | (.ok returned, c) =>
        match value returned with
        | .picked (.region rect) => .ret (.ok (some rect), c)
        | .picked .cancelled => .ret (.error 1, c)
        | _ => .ret (.error 2, c)
  else .ret (.ok none, c)

/-- A legacy capture without stored consent is confirmed by the compositor. -/
def confirmCapture (appId : String) (options : ScreenshotOptions) (c : PortalCapture) :
    Work (Except Nat Unit × PortalCapture) :=
  if !options.interactive && options.target.isNone && !options.permissionStoreChecked then
    (capture c (.pickConfirm "Take a Screenshot" s!"Allow {appId} to capture the current monitor?" (some "Capture"))).bind
      fun
        | (.error _, c) => .ret (.error 2, c)
        | (.ok returned, c) =>
          match value returned with
          | .confirmPicked .confirmed => .ret (.ok (), c)
          | .confirmPicked .cancelled => .ret (.error 1, c)
          | _ => .ret (.error 2, c)
  else .ret (.ok (), c)

def unlessClosed (next : Work CaptureResponse) : Work CaptureResponse :=
  .ask .wasClosed fun closed => if closed then .ret ⟨1, []⟩ else next

/-- `run_job`. -/
def runJob : CaptureJob → Work CaptureResponse
  | .screenshot _ token appId options =>
    unlessClosed <| (pickRegion options .new).bind fun
      | (.error code, _) => .ret ⟨code, []⟩
      | (.ok region, c) =>
        unlessClosed <| (confirmCapture appId options c).bind fun
          | (.error code, _) => .ret ⟨code, []⟩
          | (.ok (), c) =>
            unlessClosed <| (captureAndWrite c token region).bind fun
              | .error _ => .ret ⟨2, []⟩
              -- A Close racing the capture wins over a completed result.
              | .ok uri => unlessClosed <| .ret ⟨0, [("uri", .uri uri)]⟩
  | .pickColor _ _ =>
    unlessClosed <| (capture .new (.pick .pixel)).bind fun
      | (.error _, _) => .ret ⟨2, []⟩
      | (.ok returned, _) =>
        match value returned with
        | .picked (.pixel _ rgb) => unlessClosed <| .ret ⟨0, [("color", .color rgb)]⟩
        | .picked .cancelled => .ret ⟨1, []⟩
        | _ => .ret ⟨2, []⟩

/-- A `Screenshot` call, from its options to its reply. -/
def screenshot (handle appId : String) (options : OptionsMap) : Work CaptureResponse :=
  match parseOptions options with
  | .error _ => .ret ⟨2, []⟩
  | .ok options =>
    .ask .admitted fun admitted =>
      if admitted then runJob (.screenshot handle (captureToken handle) appId options) else .ret ⟨2, []⟩

end AtriumPortal.Screenshot
