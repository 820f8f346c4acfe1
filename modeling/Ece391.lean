import Ece391.Base.BitFields
import Ece391.Base.Bytes
import Ece391.Base.Chain
import Ece391.Base.Files
import Ece391.Base.Flowchart
import Ece391.Base.Frames
import Ece391.Base.Front
import Ece391.Base.Nibbles
import Ece391.Base.Painting
import Ece391.Base.Pieces
import Ece391.Base.Polls
import Ece391.Base.Results
import Ece391.Base.Ring
import Ece391.Base.Rows
import Ece391.Base.Signed
import Ece391.Base.Slots
import Ece391.Base.Stack
import Ece391.Base.Stacks
import Ece391.Base.Traced
import Ece391.Base.Words
import Ece391.Fish.Animation
import Ece391.Mp1.Assembly
import Ece391.Mp1.Blocks
import Ece391.Mp1.Convention
import Ece391.Mp1.Crosshair
import Ece391.Mp1.CrosshairMoves
import Ece391.Mp1.Display
import Ece391.Mp1.Firing
import Ece391.Mp1.Lethal
import Ece391.Mp1.Notify
import Ece391.Mp1.Pokes
import Ece391.Mp1.Turns
import Ece391.Mp2.Build
import Ece391.Mp2.Deeds
import Ece391.Mp2.Font
import Ece391.Mp2.Getting
import Ece391.Mp2.Items
import Ece391.Mp2.Keyboard
import Ece391.Mp2.ModeX
import Ece391.Mp2.PhotoFile
import Ece391.Mp2.PlaneCopies
import Ece391.Mp2.Rendering
import Ece391.Mp2.StatusBar
import Ece391.Mp2.StatusPicture
import Ece391.Os.Actions
import Ece391.Os.AddressSpace
import Ece391.Os.Bracket
import Ece391.Os.CommandLine
import Ece391.Os.DirectoryRead
import Ece391.Os.Divider
import Ece391.Os.Echo
import Ece391.Os.Execute
import Ece391.Os.FdTable
import Ece391.Os.GetArgs
import Ece391.Os.Interleaving
import Ece391.Os.Interrupts
import Ece391.Os.KeyCalls
import Ece391.Os.Lines
import Ece391.Os.MemFunctions
import Ece391.Os.ParseBounds
import Ece391.Os.RandomAccess
import Ece391.Os.Reach
import Ece391.Os.RtcWords
import Ece391.Os.Status
import Ece391.Os.SysCallEntry
import Ece391.Os.TextScreen
import Ece391.Os.TypedOver
import Ece391.Os.TypingBuffer
import Ece391.Os.UserPointers
import Ece391.Tux.Clock
import Ece391.Tux.Receive
import Ece391.Tux.Transmit
import Ece391.User.Calls
import Ece391.User.Grep
import Ece391.User.Programs
import Ece391.Os.Controller
import Ece391.Os.Vectors
import Ece391.Os.KernelStores
