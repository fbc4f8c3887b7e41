import SmartLock.Common.Prog
import SmartLock.Common.CString
import SmartLock.Common.Keyed
import SmartLock.Common.Loop
import SmartLock.Common.Register
import SmartLock.Common.Linked
import SmartLock.Common.Doubly
import SmartLock.Common.Couples
import SmartLock.Common.Ledger
import SmartLock.Common.Block
import SmartLock.Model.Base64
import SmartLock.Model.Base64Blocks
import SmartLock.Model.State
import SmartLock.Model.UserInfo
import SmartLock.Model.UTHash
import SmartLock.Model.UserTable
import SmartLock.Model.Nonce
import SmartLock.Model.Crypto
import SmartLock.Model.Nvs
import SmartLock.Model.Database
import SmartLock.Model.HttpClient
import SmartLock.Model.Handler
import SmartLock.Model.TcpServer
import SmartLock.Model.BleS3Server
import SmartLock.Model.BleServer
import SmartLock.Model.System
import SmartLock.Model.Main
import SmartLock.Model.Transmit
import SmartLock.Model.Arguments
import SmartLock.Model.Wifi
import SmartLock.Model.GattsServer
import SmartLock.Model.NonceList
import SmartLock.Model.NvsHandles
import SmartLock.Nonce.Replay
import SmartLock.Nonce.Expiry
import SmartLock.Nonce.Sorted
import SmartLock.Nonce.Memory
import SmartLock.Nonce.Stamp
import SmartLock.Session.Table
import SmartLock.Session.HashTable
import SmartLock.Session.UserTable
import SmartLock.Footprint.Basic
import SmartLock.Footprint.Handler
import SmartLock.Footprint.Server
import SmartLock.Footprint.Observed
import SmartLock.System.Frames
import SmartLock.System.Wiring
import SmartLock.Handler.Commands
import SmartLock.Handler.Gate
import SmartLock.Handler.Effect
import SmartLock.Handler.Delegation
import SmartLock.Handler.Reply
import SmartLock.Handler.Permission
import SmartLock.Handler.Invite
import SmartLock.Handler.Register
import SmartLock.Handler.Parse
import SmartLock.Handler.Door
import SmartLock.Handler.Arguments
import SmartLock.Handler.Weekdays
import SmartLock.Handler.Vouched
import SmartLock.Session.Credentials
import SmartLock.Session.Isolation
import SmartLock.System.Log
import SmartLock.System.Beside
import SmartLock.System.Exchange
import SmartLock.System.Dispatch
import SmartLock.System.Registration
import SmartLock.System.FirstInvite
import SmartLock.System.Sleep
import SmartLock.System.Authenticity
import SmartLock.System.OneCommand
import SmartLock.System.Dialogue
import SmartLock.System.Closing
import SmartLock.System.Comeback
import SmartLock.System.Disconnect
import SmartLock.System.Escape
import SmartLock.System.Heartbeat
import SmartLock.System.Wifi
import SmartLock.System.GattsWrite
import SmartLock.System.Handles
import SmartLock.System.Recall
import SmartLock.Common.Hereditary
import SmartLock.System.Pieces
import SmartLock.System.Main
import SmartLock.Handler.Bearable
import SmartLock.System.Coherent
import SmartLock.System.Provenance
import SmartLock.System.Unlocked
import SmartLock.System.Honest
import SmartLock.System.Replies
import SmartLock.System.Survival
import SmartLock.Crypto.Base64Blocks
import SmartLock.Crypto.RoundTrip
import SmartLock.Crypto.Padding
import SmartLock.Transport.Fragment
import SmartLock.Transport.Send
import SmartLock.Transport.Buffers
import SmartLock.Http.Response
