import RailBus.Main
import RailBus.Session
import RailBus.Proofs.Address
import RailBus.Proofs.AddressMap
import RailBus.Proofs.Occurrence
import RailBus.Proofs.Projection
import RailBus.Proofs.PacketWriter
import RailBus.Proofs.Run
import RailBus.Proofs.Traffic
import RailBus.Proofs.Order
import RailBus.Proofs.Credit
import RailBus.Proofs.Decoding
import RailBus.Proofs.Assembler
import RailBus.Proofs.Segments
import RailBus.Proofs.Packing
import RailBus.Proofs.PacketSize
import RailBus.Proofs.Correlation
import RailBus.Proofs.Numbering
import RailBus.Proofs.Stall
import RailBus.Proofs.LetGo
import RailBus.Proofs.Episode
import RailBus.Proofs.Resending
import RailBus.Proofs.Session
import RailBus.Proofs.Handshake
import RailBus.Proofs.Damage
import RailBus.Proofs.Routing
import RailBus.Proofs.Independence
import RailBus.Proofs.Renewal
import RailBus.Proofs.Reception
import RailBus.Proofs.Transcript
import RailBus.Proofs.Teardown
import RailBus.Proofs.Starting
import RailBus.Proofs.Checksum
import RailBus.Proofs.Overdraft
import RailBus.Proofs.Spelling
import RailBus.Proofs.EncodeDecode
import RailBus.Proofs.Lines
import RailBus.Proofs.Hearing
import RailBus.Proofs.Capture
import RailBus.Proofs.Refusal
import RailBus.Proofs.Subtree
import RailBus.Proofs.Loss
import RailBus.Proofs.Draining
import RailBus.Proofs.Unstuffing
import RailBus.Proofs.TreeOrder
import RailBus.Proofs.Storage
import RailBus.Proofs.AddressText
import RailBus.Proofs.ConfigText
