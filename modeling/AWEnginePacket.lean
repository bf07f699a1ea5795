import AWEnginePacket.Lib.Lts
import AWEnginePacket.Lib.Endian
import AWEnginePacket.Lib.Framing
import AWEnginePacket.Lib.Serial
import AWEnginePacket.Lib.Effect
import AWEnginePacket.Lib.QueueCodec
import AWEnginePacket.Lib.Refinement
import AWEnginePacket.Lib.Log
import AWEnginePacket.Lib.Mutex
import AWEnginePacket.Model.Basic
import AWEnginePacket.Model.PacketBuffer
import AWEnginePacket.Model.BufferCalls
import AWEnginePacket.Model.Locale
import AWEnginePacket.Model.Packets
import AWEnginePacket.Model.Connection
import AWEnginePacket.Model.Update
import AWEnginePacket.Model.Server
import AWEnginePacket.Proofs.Buffer
import AWEnginePacket.Proofs.Soundness
import AWEnginePacket.Proofs.Fifo
import AWEnginePacket.Proofs.RoundTrip
import AWEnginePacket.Proofs.Login
import AWEnginePacket.Proofs.Sending
import AWEnginePacket.Proofs.Steps
import AWEnginePacket.Proofs.Pump
import AWEnginePacket.Proofs.Writing
import AWEnginePacket.Proofs.Stream
import AWEnginePacket.Proofs.Reading
import AWEnginePacket.Proofs.Receiving
import AWEnginePacket.Proofs.Delivery
import AWEnginePacket.Proofs.KeepAlive
import AWEnginePacket.Proofs.Session
import AWEnginePacket.Proofs.Sweep
import AWEnginePacket.Proofs.Compression
import AWEnginePacket.Model.ThreadSafeQueue
import AWEnginePacket.Proofs.WakeUp
import AWEnginePacket.Model.Client
import AWEnginePacket.Proofs.Client
import AWEnginePacket.Model.Service
import AWEnginePacket.Lib.Slots
import AWEnginePacket.Proofs.Service
import AWEnginePacket.Proofs.Alone
import AWEnginePacket.Proofs.Starving
import AWEnginePacket.Proofs.Locale
import AWEnginePacket.Proofs.Bodies
import AWEnginePacket.Model.Containers
import AWEnginePacket.Proofs.Containers
import AWEnginePacket.Lib.Json
import AWEnginePacket.Model.ServerStatus
import AWEnginePacket.Proofs.ServerStatus
import AWEnginePacket.Proofs.Leaks
import AWEnginePacket.Model.UpdateSteps
import AWEnginePacket.Proofs.Updating
import AWEnginePacket.Proofs.UpdateAlone
import AWEnginePacket.Model.Broadcast
import AWEnginePacket.Proofs.Broadcast
import AWEnginePacket.Proofs.KeepAliveSweep
import AWEnginePacket.Proofs.LocaleText
import AWEnginePacket.Proofs.Payload
import AWEnginePacket.Proofs.Extraction
import AWEnginePacket.Proofs.Peeking
import AWEnginePacket.Proofs.Refusals
import AWEnginePacket.Model.Link
import AWEnginePacket.Proofs.Link
import AWEnginePacket.Proofs.Unheard
import AWEnginePacket.Proofs.Unread
import AWEnginePacket.Proofs.Echo
import AWEnginePacket.Lib.Atomic
import AWEnginePacket.Lib.Potential
import AWEnginePacket.Model.SharedQueue
import AWEnginePacket.Proofs.Channel
import AWEnginePacket.Proofs.Settling
import AWEnginePacket.Model.Network
import AWEnginePacket.Proofs.Announcing
import AWEnginePacket.Proofs.Quiescence
import AWEnginePacket.Model.Lifetime
import AWEnginePacket.Proofs.Lifetime
import AWEnginePacket.Proofs.Shutdown
import AWEnginePacket.Proofs.Arriving
import AWEnginePacket.Proofs.Waiting
import AWEnginePacket.Proofs.Posting
import AWEnginePacket.Model.Dialogue
import AWEnginePacket.Proofs.Dialogue
