import PodrumFormal.RakNet.AcknowledgeRoundTrip
import PodrumFormal.RakNet.NackRecovery
import PodrumFormal.RakNet.SendRun
import PodrumFormal.RakNet.NackQueue
import PodrumFormal.RakNet.Reassembly
import PodrumFormal.Minecraft.LoginSignatures
import PodrumFormal.Minecraft.LoginKeys
import PodrumFormal.Lib.History
import PodrumFormal.Minecraft.Dispatch
import PodrumFormal.Minecraft.GameGate
import PodrumFormal.RakNet.Recovery
import PodrumFormal.RakNet.HandlerEffects
import PodrumFormal.RakNet.AckSafety
import PodrumFormal.RakNet.IdleSender
import PodrumFormal.RakNet.OrderlyDelivery
import PodrumFormal.RakNet.Server
import PodrumFormal.RakNet.DatagramSize
import PodrumFormal.RakNet.Handshake
import PodrumFormal.RakNet.FragmentSize
import PodrumFormal.RakNet.HoleSize
import PodrumFormal.RakNet.Duplicates
import PodrumFormal.RakNet.Threads
import PodrumFormal.RakNet.OpenPeers
import PodrumFormal.RakNet.PeerAddress
import PodrumFormal.RakNet.Sessions
import PodrumFormal.Minecraft.PlayerSessions
import PodrumFormal.RakNet.DatagramLayout
import PodrumFormal.Nbt.RoundTrip
import PodrumFormal.Minecraft.GameQueues
import PodrumFormal.Minecraft.Item
import PodrumFormal.Minecraft.GameLink
import PodrumFormal.Minecraft.ResourceManager
import PodrumFormal.Minecraft.GamePacket
import PodrumFormal.World.ChunkMap
import PodrumFormal.World.RegionContent
import PodrumFormal.World.RegionLarge
import PodrumFormal.World.RegionCorrupt
import PodrumFormal.Minecraft.BatchReads
import PodrumFormal.Misc.JsonPrint
import PodrumFormal.Misc.JsonStandard
import PodrumFormal.RakNet.ByteQueues
import PodrumFormal.RakNet.Compounds
import PodrumFormal.RakNet.RecordCells
import PodrumFormal.Minecraft.SkinEncoding
import PodrumFormal.Minecraft.PacketRoundTrip
import PodrumFormal.Minecraft.GameBuffer
import PodrumFormal.Minecraft.ChunkWalk
import PodrumFormal.Minecraft.ResponseArrays
import PodrumFormal.Minecraft.BlockStorageWords
import PodrumFormal.World.ChunkScan
import PodrumFormal.Minecraft.BlockStates
import PodrumFormal.Misc.JsonEscapes
import PodrumFormal.Misc.Base64Signature
import PodrumFormal.Misc.Base64RoundTrip
import PodrumFormal.Command.CommandManager
import PodrumFormal.RakNet.ConnectionTable
import PodrumFormal.RakNet.InternalMessages
import PodrumFormal.RakNet.HandshakePackets
import PodrumFormal.Minecraft.PlayerTable
import PodrumFormal.Minecraft.LevelChunk
import PodrumFormal.Minecraft.FlatChunks
import PodrumFormal.Minecraft.LoginTypes
import PodrumFormal.Stream.VarIntLoops
