import CopyJump.Memory.Metered
import CopyJump.Device.Scripted
import CopyJump.Main
import CopyJump.Proofs.HostParts
import CopyJump.Proofs.Transparency
import CopyJump.Proofs.Delivery
import CopyJump.Proofs.PathLookup
import CopyJump.Proofs.SteadyHost
import CopyJump.Proofs.HeadlessAgreement
import CopyJump.Proofs.TwinHosts
import CopyJump.Proofs.SoundTrouble
import CopyJump.Proofs.BrokenSpeaker
import CopyJump.Proofs.PausedHost
import CopyJump.Proofs.Controls
import CopyJump.Proofs.Parking
import CopyJump.Proofs.Provenance
import CopyJump.Proofs.KeyAccount
import CopyJump.Proofs.LogSettings
import CopyJump.Proofs.Numerals
import CopyJump.Proofs.Streams
import CopyJump.Proofs.OwnDirectory
import CopyJump.Proofs.KeyPresses
import CopyJump.Proofs.PathOrder
import CopyJump.Proofs.RomListing
import CopyJump.Proofs.ColourGroups
import CopyJump.Proofs.PaintedCells
import CopyJump.Proofs.OverlayCells
import CopyJump.Proofs.ColourPartition
import CopyJump.Proofs.MaskGrammar
import CopyJump.Proofs.FrameWindows
import CopyJump.Proofs.SignChanges
import CopyJump.Proofs.DigestDifference
import CopyJump.Proofs.RomNames
import CopyJump.Proofs.SummaryLine
import CopyJump.Proofs.FrameSizes
