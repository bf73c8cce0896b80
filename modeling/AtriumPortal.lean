import AtriumPortal.Lib.Runs
import AtriumPortal.Lib.Ledger
import AtriumPortal.Lib.Shelves
import AtriumPortal.Lib.Cancel
import AtriumPortal.Lib.Table
import AtriumPortal.Lib.Interact
import AtriumPortal.Lib.Path
import AtriumPortal.Lib.Stream
import AtriumPortal.Lib.Slices
import AtriumPortal.Lib.Pool
import AtriumPortal.Lib.Checks
import AtriumPortal.Ipc.Codec
import AtriumPortal.Ipc.Schema
import AtriumPortal.Ipc.Client
import AtriumPortal.Ipc.Reading
import AtriumPortal.Ipc.Framing
import AtriumPortal.Ipc.Surfacing
import AtriumPortal.Ipc.Leftover
import AtriumPortal.Ipc.Capture
import AtriumPortal.Ipc.Handshake
import AtriumPortal.Ipc.Pairing
import AtriumPortal.Cast.Format
import AtriumPortal.Cast.Frame
import AtriumPortal.Cast.State
import AtriumPortal.Cast.Publish
import AtriumPortal.Cast.Loop
import AtriumPortal.Cast.StartState
import AtriumPortal.Cast.Buffers
import AtriumPortal.Cast.Steps
import AtriumPortal.Cast.Ownership
import AtriumPortal.Cast.Restarts
import AtriumPortal.Cast.Events
import AtriumPortal.Cast.Returns
import AtriumPortal.Cast.Leaks
import AtriumPortal.Cast.Damage
import AtriumPortal.Cast.SlotTables
import AtriumPortal.Cast.Copy
import AtriumPortal.Cast.Accounting
import AtriumPortal.Cast.MetaBlock
import AtriumPortal.Prompter.FileChooser
import AtriumPortal.Prompter.SavedNames
import AtriumPortal.Cast.CopyPath
import AtriumPortal.Cast.Thread
import AtriumPortal.Cast.Attribution
import AtriumPortal.Prompter.Contract
import AtriumPortal.Prompter.Invoke
import AtriumPortal.Prompter.Notify
import AtriumPortal.Prompter.Cards
import AtriumPortal.Lib.Quota
import AtriumPortal.Prompter.Appearance
import AtriumPortal.Portal.Tracker
import AtriumPortal.Portal.Requests
import AtriumPortal.Portal.Workers
import AtriumPortal.Portal.Dialogs
import AtriumPortal.Portal.Choosers
import AtriumPortal.Portal.CloseWins
import AtriumPortal.Portal.Inhibit
import AtriumPortal.Portal.Inhibited
import AtriumPortal.Portal.Wallpaper
import AtriumPortal.Portal.Leaked
import AtriumPortal.Portal.Files
import AtriumPortal.Screenshot.Jobs
import AtriumPortal.Portal.Dispatch
import AtriumPortal.Screenshot.Asks
import AtriumPortal.Screenshot.Consent
import AtriumPortal.Screenshot.Cleanup
import AtriumPortal.ScreenCast.Persist
import AtriumPortal.ScreenCast.Grants
import AtriumPortal.ScreenCast.StoreFile
import AtriumPortal.ScreenCast.Durable
import AtriumPortal.ScreenCast.Session
import AtriumPortal.ScreenCast.Casts
import AtriumPortal.ScreenCast.Incarnations
import AtriumPortal.ScreenCast.Armed
import AtriumPortal.ScreenCast.Select
import AtriumPortal.ScreenCast.Consent
import AtriumPortal.ScreenCast.Outage
import AtriumPortal.ScreenCast.Refused
import AtriumPortal.ScreenCast.Transient
import AtriumPortal.ScreenCast.Requested
import AtriumPortal.ScreenCast.Misarmed
import AtriumPortal.ScreenCast.Joins
import AtriumPortal.Lib.Percent
import AtriumPortal.Portal.FileChooser
import AtriumPortal.Portal.FileUris
import AtriumPortal.Apps.Exec
import AtriumPortal.Portal.Background
import AtriumPortal.Portal.Autostart
import AtriumPortal.Lib.Mailto
import AtriumPortal.Portal.Email
import AtriumPortal.Lib.Lines
import AtriumPortal.Prompter.NotifyLines
import AtriumPortal.Prompter.NotifyFrames
import AtriumPortal.Portal.Delivered
import AtriumPortal.Apps.Scan
import AtriumPortal.Apps.Candidates
import AtriumPortal.Apps.Globs
import AtriumPortal.Apps.ContentType
import AtriumPortal.Apps.MimeApps
import AtriumPortal.Apps.Recorded
import AtriumPortal.Apps.SetDefault
import AtriumPortal.Portal.OpenUri
import AtriumPortal.Portal.Atomic
import AtriumPortal.Portal.Staging
import AtriumPortal.Portal.Respawns
import AtriumPortal.Lib.Binary64
import AtriumPortal.Lib.Overlay
import AtriumPortal.Portal.Settings
import AtriumPortal.Ipc.WallpaperPath
import AtriumPortal.Lib.Fields
import AtriumPortal.Secret.Native
import AtriumPortal.Secret.Requests
import AtriumPortal.Secret.Portal
import AtriumPortal.Secret.Responses
import AtriumPortal.Lib.Positions
import AtriumPortal.Portal.Mailers
import AtriumPortal.Prompter.Answer
import AtriumPortal.Portal.EventPump
import AtriumPortal.Portal.SettingsWatcher
import AtriumPortal.Ipc.Operations
import AtriumPortal.Ipc.Socket
import AtriumPortal.Portal.Opening
import AtriumPortal.Lib.Pipe
import AtriumPortal.Prompter.Supervision
