import SignalProtocol.Lib.Op
import SignalProtocol.Lib.Window
import SignalProtocol.Lib.Wire
import SignalProtocol.Lib.CString
import SignalProtocol.Lib.Block
import SignalProtocol.Lib.SkippedKeys
import SignalProtocol.Lib.Deduction
import SignalProtocol.Lib.Mutex
import SignalProtocol.Crypto
import SignalProtocol.Ratchet
import SignalProtocol.State
import SignalProtocol.Storage
import SignalProtocol.Record
import SignalProtocol.Message
import SignalProtocol.Store
import SignalProtocol.Cipher
import SignalProtocol.Builder
import SignalProtocol.Session
import SignalProtocol.Refine
import SignalProtocol.Receive
import SignalProtocol.Book
import SignalProtocol.Setup
import SignalProtocol.KeyExchange
import SignalProtocol.Calls
import SignalProtocol.StateKeys
import SignalProtocol.Current
import SignalProtocol.Symbolic
import SignalProtocol.Ladder
import SignalProtocol.Agreement
import SignalProtocol.Attacker
import SignalProtocol.Secrecy
import SignalProtocol.Compromise
import SignalProtocol.Forgery
import SignalProtocol.Run
import SignalProtocol.SenderKeys
import SignalProtocol.Lineage
import SignalProtocol.Replay
import SignalProtocol.Rejection
import SignalProtocol.PreKeyMessages
import SignalProtocol.OneTimeKeys
import SignalProtocol.WellFormed
import SignalProtocol.Commit
import SignalProtocol.Corruption
import SignalProtocol.PendingExchange
import SignalProtocol.Trust
import SignalProtocol.Reentrancy
import SignalProtocol.Concurrency
import SignalProtocol.GroupMessage
import SignalProtocol.Packing
import SignalProtocol.Codec
import SignalProtocol.Compare
import SignalProtocol.SenderKeyRecord
import SignalProtocol.StorageFormat
import SignalProtocol.StoredBytes
import SignalProtocol.GroupCipher
import SignalProtocol.GroupWindow
import SignalProtocol.GroupCalls
import SignalProtocol.GroupDelivery
import SignalProtocol.GroupForward
import SignalProtocol.Redistribution
import SignalProtocol.GroupSecrecy
import SignalProtocol.Network
import SignalProtocol.Promotion
import SignalProtocol.Stream
import SignalProtocol.Establishment
import SignalProtocol.Handshake
import SignalProtocol.SimultaneousInitiate
import SignalProtocol.KeyWindow
import SignalProtocol.InitialKeys
import SignalProtocol.Vpool
import SignalProtocol.Bundles
import SignalProtocol.Redelivery
import SignalProtocol.KeyHelper
import SignalProtocol.Provisioning
import SignalProtocol.Hkdf
import SignalProtocol.Fingerprint
import SignalProtocol.Scanning
