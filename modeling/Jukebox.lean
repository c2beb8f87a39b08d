import Jukebox.Catalog.Basic
import Jukebox.Catalog.Resolve
import Jukebox.Catalog.Web
import Jukebox.Command.Basic
import Jukebox.Command.Reader
import Jukebox.Command.Reply
import Jukebox.Command.Spelling
import Jukebox.Config.Basic
import Jukebox.Config.Record
import Jukebox.Config.Store
import Jukebox.Config.System
import Jukebox.Config.Writing
import Jukebox.Embed
import Jukebox.Environment
import Jukebox.Error
import Jukebox.Files.Basic
import Jukebox.Files.Path
import Jukebox.Format
import Jukebox.Json.Format
import Jukebox.Json.Printer
import Jukebox.Json.Reader
import Jukebox.Json.Token
import Jukebox.Json.Value
import Jukebox.Link.Address
import Jukebox.Link.Basic
import Jukebox.Link.Host
import Jukebox.Link.Punycode
import Jukebox.Lookup
import Jukebox.Mode
import Jukebox.Number.Decimal
import Jukebox.Number.Shortest
import Jukebox.Number.Single
import Jukebox.Playback.Alone
import Jukebox.Playback.Basic
import Jukebox.Playback.Stage
import Jukebox.Playback.State
import Jukebox.Playback.Step
import Jukebox.Playback.System
import Jukebox.Playback.Turns
import Jukebox.Playlist.Snapshot
import Jukebox.Playlist.Store
import Jukebox.Presence
import Jukebox.Proofs.Catalog.Replies
import Jukebox.Proofs.Catalog.Resolve
import Jukebox.Proofs.Command.Places
import Jukebox.Proofs.Command.Sign
import Jukebox.Proofs.Command.Typing
import Jukebox.Proofs.Config.Malformed
import Jukebox.Proofs.Config.RoundTrip
import Jukebox.Proofs.Config.Stale
import Jukebox.Proofs.Config.Validation
import Jukebox.Proofs.Config.Volume
import Jukebox.Proofs.Directories
import Jukebox.Proofs.Entries
import Jukebox.Proofs.Files
import Jukebox.Proofs.Json.RoundTrip
import Jukebox.Proofs.Link.CatalogId
import Jukebox.Proofs.Link.Scheme
import Jukebox.Proofs.Lowercase
import Jukebox.Proofs.Moves
import Jukebox.Proofs.Path
import Jukebox.Proofs.Playback.Attempts
import Jukebox.Proofs.Playback.AutoPause
import Jukebox.Proofs.Playback.Cancelled
import Jukebox.Proofs.Playback.Completion
import Jukebox.Proofs.Playback.Custody
import Jukebox.Proofs.Playback.Duplicates
import Jukebox.Proofs.Playback.Effect
import Jukebox.Proofs.Playback.Ended
import Jukebox.Proofs.Playback.Failures
import Jukebox.Proofs.Playback.GoingBack
import Jukebox.Proofs.Playback.Listeners
import Jukebox.Proofs.Playback.Marker
import Jukebox.Proofs.Playback.NextTrack
import Jukebox.Proofs.Playback.Order
import Jukebox.Proofs.Playback.Overlooked
import Jukebox.Proofs.Playback.Paused
import Jukebox.Proofs.Playback.Playing
import Jukebox.Proofs.Playback.Precedence
import Jukebox.Proofs.Playback.Removal
import Jukebox.Proofs.Playback.Report
import Jukebox.Proofs.Playback.Run
import Jukebox.Proofs.Playback.Seeking
import Jukebox.Proofs.Playback.Silence
import Jukebox.Proofs.Playback.Stranded
import Jukebox.Proofs.Playback.Transition
import Jukebox.Proofs.Playlist.Backup
import Jukebox.Proofs.Playlist.Record
import Jukebox.Proofs.Playlist.RoundTrip
import Jukebox.Proofs.Playlist.Search
import Jukebox.Proofs.Presence
import Jukebox.Proofs.Queue.Course
import Jukebox.Proofs.Queue.Duplicates
import Jukebox.Proofs.Queue.History
import Jukebox.Proofs.Queue.Identity
import Jukebox.Proofs.Queue.Lap
import Jukebox.Proofs.Queue.Laps
import Jukebox.Proofs.Queue.Listed
import Jukebox.Proofs.Queue.Loading
import Jukebox.Proofs.Queue.Schedule
import Jukebox.Proofs.Session.Agreement
import Jukebox.Proofs.Session.Alone
import Jukebox.Proofs.Session.Cookie
import Jukebox.Proofs.Session.Polling
import Jukebox.Proofs.Session.Usable
import Jukebox.Proofs.Session.Writers
import Jukebox.Proofs.Track.Name
import Jukebox.Proofs.Web
import Jukebox.Proofs.Yaml.RoundTrip
import Jukebox.Proofs.Yaml.Scalar
import Jukebox.Proofs.Yaml.Scanning
import Jukebox.Queue.Advance
import Jukebox.Queue.Basic
import Jukebox.Queue.Shuffle
import Jukebox.Session.Account
import Jukebox.Session.Basic
import Jukebox.Session.Cookie
import Jukebox.Session.Pairs
import Jukebox.Session.Scheduler
import Jukebox.Session.Status
import Jukebox.Session.System
import Jukebox.Session.Timer
import Jukebox.Span
import Jukebox.Text.Base64
import Jukebox.Text.Blank
import Jukebox.Text.Lowercase
import Jukebox.Text.Numeral
import Jukebox.Track.Attributes
import Jukebox.Track.Basic
import Jukebox.Track.Name
import Jukebox.Track.Record
import Jukebox.Yaml.Format
import Jukebox.Yaml.Node
import Jukebox.Yaml.Token
import Jukebox.Yaml.Writer
