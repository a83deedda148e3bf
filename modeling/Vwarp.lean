import Vwarp.Proxy.Socks5.Agreement
import Vwarp.Proxy.Mixed
import Vwarp.Wireguard.Conn.ProxyBind.Lifecycle
import Vwarp.Wireguard.Conn.ProxyBind.Reply
import Vwarp.App.WarpInWarp
import Vwarp.IpScanner.Engine.Pipeline
import Vwarp.IpScanner.Engine.EarlyStop
import Vwarp.App.MasqueTunnel.Sockets
import Vwarp.Masque.Noize.Disable
import Vwarp.Config.Noize.DataPath
import Vwarp.Proxy.Socks5.Relay.Served
import Vwarp.App.MasqueTunnel.Detect
import Vwarp.App.Wg
import Vwarp.Warp.Account
import Vwarp.Proxy.Socks5.Codec
import Vwarp.Proxy.Http.Destination
import Vwarp.IpScanner.Iterator.Walk
import Vwarp.Wiresocks.Handler
import Vwarp.Wiresocks.Shutdown
import Vwarp.Cps.Format
import Vwarp.Masque.Noize.Signature
import Vwarp.Masque.Spelling
import Vwarp.Masque.Noize.Shortcut
import Vwarp.Masque.Scanner.Shutdown
import Vwarp.Cmd.WarpScan
import Vwarp.Wiresocks.Ports
import Vwarp.IpScanner.Ping.Icmp
import Vwarp.IpScanner.Iterator.Lcg
import Vwarp.Warp.Tls
import Vwarp.Config.Noize.JunkBudget
import Vwarp.Config.Noize.Heap
import Vwarp.Masque.Noize.Count
import Vwarp.Cmd.Root
import Vwarp.Config.Noize.Occurrence
import Vwarp.Wireguard.Replay
