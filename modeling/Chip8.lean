import Chip8.Host
import Chip8.Progress
import Chip8.Render.Grid
import Chip8.Proofs.FaultTable
import Chip8.Proofs.GlyphWalk
import Chip8.Proofs.PendingCalls
import Chip8.Proofs.KeyWait
import Chip8.Proofs.Call
import Chip8.Proofs.Independence
import Chip8.Proofs.Session
import Chip8.Proofs.History
import Chip8.Proofs.Frames
import Chip8.Proofs.Sounds
import Chip8.Proofs.Countdown
import Chip8.Proofs.Strictness
import Chip8.Proofs.Encoding
import Chip8.Proofs.Successor
import Chip8.Proofs.Footprint
import Chip8.Proofs.Replay
import Chip8.Proofs.Interleaving
import Chip8.Proofs.RandomStream
import Chip8.Proofs.Noninterference
import Chip8.Proofs.Diagnosis
import Chip8.Proofs.Bounds
import Chip8.Proofs.Canvas
import Chip8.Proofs.ProgressBar
import Chip8.Proofs.RegisterBlock
import Chip8.Proofs.FlagArithmetic
import Chip8.Proofs.Standstill
import Chip8.Proofs.Overdrawing
import Chip8.Proofs.Loading
import Chip8.Proofs.GridRendering
import Chip8.Proofs.Disassembly
import Chip8.Proofs.WideWords
import Chip8.Proofs.DecimalDigits
