import Orcker.Config.Migrated
import Orcker.Core.Matching
import Orcker.Core.Targets
import Orcker.Daemon.CaFiles
import Orcker.Daemon.CertStore
import Orcker.Daemon.DescriptorFile
import Orcker.Daemon.DetectCache
import Orcker.Daemon.Downloads
import Orcker.Daemon.Groups
import Orcker.Daemon.LanSetup
import Orcker.Daemon.Locks
import Orcker.Daemon.Pins
import Orcker.Daemon.ProjectRuns
import Orcker.Daemon.Restart
import Orcker.Daemon.Undo
import Orcker.Daemon.Unpark
import Orcker.Daemon.Watcher
import Orcker.Dns.Probe
import Orcker.Helper.CaUninstall
import Orcker.Helper.LinuxResolver
import Orcker.Helper.MacResolver
import Orcker.Helper.PortRedirect
import Orcker.Ipc.Frame
import Orcker.Mail.Crash
import Orcker.Mail.Ids
import Orcker.Mail.Rejected
import Orcker.Mail.Server
import Orcker.Mcp.Egress
import Orcker.Mcp.Session
import Orcker.Proxy.ClientHeaders
import Orcker.Proxy.FcgiResponse
import Orcker.Proxy.Picker
import Orcker.Proxy.Redirects
import Orcker.Tunnel.RunToReady
import Orcker.Update.Apply
import Orcker.Update.Reconcile
import Orcker.Update.Stage
