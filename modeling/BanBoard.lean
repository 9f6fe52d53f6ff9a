import BanBoard.Client.Scripted
import BanBoard.Http.Routes
import BanBoard.Main
import BanBoard.Cli.Run
import BanBoard.Proofs.Client.Faithful
import BanBoard.Proofs.Http.Routes
import BanBoard.Proofs.Jail.Basic
import BanBoard.Proofs.Json.Record
import BanBoard.Proofs.Json.Text
import BanBoard.Proofs.Json.Value
import BanBoard.Proofs.Log.File
import BanBoard.Proofs.Log.History
import BanBoard.Proofs.Log.Order
import BanBoard.Proofs.Net.AddressText
import BanBoard.Proofs.Net.Network
import BanBoard.Proofs.Net.Numerals
import BanBoard.Proofs.Net.Spelling
import BanBoard.Proofs.Net.Token
import BanBoard.Proofs.Service.Actions
import BanBoard.Proofs.Service.Jails
import BanBoard.Proofs.Service.Session
import BanBoard.Proofs.Shell.Quoting
import BanBoard.Proofs.Status.Report
import BanBoard.Proofs.StoredRecord
import BanBoard.Proofs.Text.Decimal
import BanBoard.Proofs.Text.Split
import BanBoard.Proofs.Text.Utf8
import BanBoard.Proofs.Time.Calendar
import BanBoard.Proofs.Time.Order
import BanBoard.Proofs.Time.Rfc3339
import BanBoard.Proofs.Log.WholeLines
import BanBoard.Proofs.Log.ReadBack
import BanBoard.Proofs.Log.Recovery
import BanBoard.Proofs.Service.Accountability
import BanBoard.Proofs.Text.Row
import BanBoard.Proofs.Text.DecimalDigit
import BanBoard.Proofs.Status.AnyOrder
import BanBoard.Proofs.Time.Hour
import BanBoard.Proofs.Overview.Timeline
import BanBoard.Proofs.Overview.Offenders
import BanBoard.Proofs.Jail.Name
import BanBoard.Proofs.Service.VettedWords
import BanBoard.Proofs.Log.TornEntry
import BanBoard.Proofs.Log.FreshIds
import BanBoard.Proofs.Log.Visibility
import BanBoard.Proofs.Json.Trailing
import BanBoard.Proofs.Log.Damage
import BanBoard.Proofs.Config.Precedence
import BanBoard.Proofs.Config.SshTarget
import BanBoard.Proofs.Service.LiveTimeline
import BanBoard.Proofs.Service.FixedReplies
import BanBoard.Proofs.Service.PartialData
import BanBoard.Proofs.Service.Lookup
import BanBoard.Proofs.Service.DemoIsolation
import BanBoard.Proofs.Jail.History
import BanBoard.Proofs.Overview.Reordering
import BanBoard.Proofs.Log.Query
import BanBoard.Proofs.Http.LogAnswers
import BanBoard.Proofs.Status.WrappedList
import BanBoard.Proofs.Time.Strict
import BanBoard.Proofs.Http.LogWindow
import BanBoard.Proofs.Time.Zone
import BanBoard.Proofs.Status.BanTimes
import BanBoard.Proofs.Random.Draw
import BanBoard.Proofs.Demo.Plan
import BanBoard.Proofs.Demo.Data
import BanBoard.Proofs.Overview.MovedTimes
import BanBoard.Proofs.Demo.Stability
import BanBoard.Proofs.Log.Readings
import BanBoard.Proofs.Log.Rollback
import BanBoard.Proofs.Config.BlankSettings
import BanBoard.Proofs.Files.Tree
import BanBoard.Proofs.Cli.Arguments
import BanBoard.Proofs.Log.Replay
import BanBoard.Proofs.Cli.LogLines
import BanBoard.Proofs.Text.Separated
import BanBoard.Proofs.Status.JailList
import BanBoard.Proofs.Jail.Reached
import BanBoard.Proofs.Overview.Agreement
import BanBoard.Proofs.Status.Attach
import BanBoard.Proofs.Status.Provenance
import BanBoard.Proofs.Overview.Totals
import BanBoard.Proofs.Service.CanonicalAddress
import BanBoard.Proofs.Demo.HourCounts
import BanBoard.Proofs.Demo.HourSeed
