import ConfProfile.Lib.Run
import ConfProfile.Lib.Loop
import ConfProfile.Lib.LinkedList
import ConfProfile.Lib.DescList
import ConfProfile.Lib.OnesSum
import ConfProfile.Lib.ByteMem
import ConfProfile.Lib.Frames
import ConfProfile.Lib.Search
import ConfProfile.Lib.Tokens
import ConfProfile.Lib.Tables
import ConfProfile.Router.Send4
import ConfProfile.Router.Route6
import ConfProfile.Router.Count
import ConfProfile.Router.Poll
import ConfProfile.Router.Interest
import ConfProfile.Router.Collect
import ConfProfile.Router.Loop
import ConfProfile.Router.StartUp
import ConfProfile.Router.Memory
import ConfProfile.Router.DevTun
import ConfProfile.Router.Bounds
import ConfProfile.Packet.ExtHeaders
import ConfProfile.Tun.Frame
import ConfProfile.Tun.Ip6
import ConfProfile.Tun.OtherVersions
import ConfProfile.Tun.DnsFlow
import ConfProfile.Usernat.Dead
import ConfProfile.Usernat.Order
import ConfProfile.Usernat.Reply
import ConfProfile.Usernat.Command
import ConfProfile.Usernat.CommandLoop
import ConfProfile.Usernat.Message
import ConfProfile.Usernat.Responses
import ConfProfile.Usernat.CmdReads
import ConfProfile.Usernat.Sockets
import ConfProfile.Usernat.PassedFds
import ConfProfile.Usernat.Sigchld
import ConfProfile.Usernat.Relay
import ConfProfile.Format.Builtin
import ConfProfile.Format.Profile
import ConfProfile.Format.NullElements
import ConfProfile.OnDemand.Extract
import ConfProfile.OnDemand.Actions
import ConfProfile.OpenVpn.Config
import ConfProfile.Install.Atomic
import ConfProfile.Db.Transaction
import ConfProfile.Threads.HelperThread
import ConfProfile.Threads.SyncRequest
import ConfProfile.Threads.Listeners
import ConfProfile.Threads.Interrupts
import ConfProfile.Jcajce.NoneWithRsa
import ConfProfile.Jcajce.WrapRange
import ConfProfile.Jcajce.Signing
import ConfProfile.Crypto.Storage
import ConfProfile.Vpn.Status
import ConfProfile.Vpn.Activate
import ConfProfile.OnDemand.Masks
import ConfProfile.Install.KnownTypes
import ConfProfile.OpenVpn.Normal
import ConfProfile.OpenVpn.Escape
import ConfProfile.OpenVpn.Reads
import ConfProfile.OpenVpn.Management
import ConfProfile.OpenVpn.Serve
import ConfProfile.Format.Decrypt
import ConfProfile.Format.Subject
import ConfProfile.Debug.Pcap
import ConfProfile.OpenVpn.Ip6
import ConfProfile.Vpn.Executable
import ConfProfile.Crypto.RandomString
import ConfProfile.Packet.Update
import ConfProfile.Usernat.Queue
import ConfProfile.Router.Send6
import ConfProfile.Router.Deinit
import ConfProfile.Debug.PcapOutput
import ConfProfile.Imc.Attributes
import ConfProfile.Imc.Remediation
import ConfProfile.Db.Profiles
import ConfProfile.Mtpd.Handshake
import ConfProfile.Mtpd.Call
import ConfProfile.Lib.CString
import ConfProfile.Mtpd.Envargs
import ConfProfile.Mtpd.Main
import ConfProfile.Mtpd.Fork
