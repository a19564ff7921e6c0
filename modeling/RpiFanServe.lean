import RpiFanServe.Foundation.StepMachine
import RpiFanServe.Foundation.Threads
import RpiFanServe.Foundation.CString
import RpiFanServe.Foundation.Regex
import RpiFanServe.Log.Line
import RpiFanServe.Log.RoundTrip
import RpiFanServe.Log.File
import RpiFanServe.Log.Malformed
import RpiFanServe.Cache.Expiry
import RpiFanServe.Cache.Server
import RpiFanServe.Cache.Staleness
import RpiFanServe.Cache.Rotation
import RpiFanServe.Cache.Snapshot
import RpiFanServe.Dbus.Message
import RpiFanServe.Foundation.Channel
import RpiFanServe.Dbus.Delivery
import RpiFanServe.Config.Permanent
import RpiFanServe.Config.Startup
import RpiFanServe.Config.SaveDelay
import RpiFanServe.Locker.SocketLocker
import RpiFanServe.Locker.Exclusion
import RpiFanServe.Locker.Race
import RpiFanServe.Log.Jobs
import RpiFanServe.Log.Tasks
import RpiFanServe.Cache.Refill
import RpiFanServe.Cache.Entries
import RpiFanServe.Cache.Thresholds
import RpiFanServe.Cache.Refresh
import RpiFanServe.Config.Life
import RpiFanServe.Config.Save
import RpiFanServe.Locker.LiveSocket
import RpiFanServe.Log.Records
import RpiFanServe.Log.DayOffset
import RpiFanServe.Cache.MissingLog
import RpiFanServe.Config.Throttle
import RpiFanServe.Dbus.Sending
import RpiFanServe.Locker.Descriptors
import RpiFanServe.Locker.Readiness
import RpiFanServe.Cli.DecimalLiteral
import RpiFanServe.Cli.Argparse
import RpiFanServe.Cli.Parse
import RpiFanServe.Cli.Options
import RpiFanServe.Cli.CommandLine
import RpiFanServe.Cli.Main
import RpiFanServe.Cli.Control
import RpiFanServe.System.Property
import RpiFanServe.System.Restart
import RpiFanServe.Cache.Plain
import RpiFanServe.Dbus.Lifetime
import RpiFanServe.Config.Savers
import RpiFanServe.System.Persistence
import RpiFanServe.Dbus.Helper
