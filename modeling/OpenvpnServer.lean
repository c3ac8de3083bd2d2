import OpenvpnServer.Access.Lease.Theorems
import OpenvpnServer.Access.Oath.Limit
import OpenvpnServer.Access.Oath.Secrets
import OpenvpnServer.Accounts.Identity.Theorems
import OpenvpnServer.Accounts.Limiter
import OpenvpnServer.Accounts.Password.Theorems
import OpenvpnServer.Accounts.Portal.Theorems
import OpenvpnServer.Accounts.ShareLink.Theorems
import OpenvpnServer.Collector.Archive.Theorems
import OpenvpnServer.Collector.Chart.Theorems
import OpenvpnServer.Collector.Connections.Theorems
import OpenvpnServer.Collector.LogTail
import OpenvpnServer.Collector.Recovery
import OpenvpnServer.Collector.Rejection.Theorems
import OpenvpnServer.Collector.Visits.Theorems
import OpenvpnServer.Config.Spelling
import OpenvpnServer.Config.Theorems
import OpenvpnServer.Firewall.Theorems
import OpenvpnServer.Management.Theorems
import OpenvpnServer.Network.Combined
import OpenvpnServer.Network.Concurrent
import OpenvpnServer.Network.Declared
import OpenvpnServer.Network.FromServerConf.Theorems
import OpenvpnServer.Network.GuestDefault.Theorems
import OpenvpnServer.Network.Remote.Theorems
import OpenvpnServer.Recovery.Theorems
import OpenvpnServer.Relay.Authorize.Theorems
import OpenvpnServer.Relay.Datagrams
import OpenvpnServer.Relay.Events
import OpenvpnServer.Relay.Flow.Theorems
import OpenvpnServer.Relay.History.Theorems
import OpenvpnServer.Relay.Quota
import OpenvpnServer.Relay.Race.Theorems
