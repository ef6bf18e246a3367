import CasseOS.Lib.Run
import CasseOS.Lib.Loop
import CasseOS.Lib.Orbit
import CasseOS.Lib.CInt
import CasseOS.Lib.Ring
import CasseOS.Lib.Channel
import CasseOS.Lib.Chain
import CasseOS.Lib.TextGrid
import CasseOS.Lib.Attempts
import CasseOS.Lib.Reading
import CasseOS.Lib.Latch
import CasseOS.Lib.Lens
import CasseOS.Lib.ForLoop
import CasseOS.Lib.Buffer
import CasseOS.Lib.Numeral
import CasseOS.Lib.Stack
import CasseOS.Lib.Priority
import CasseOS.Lib.Bits
import CasseOS.Lib.Bytes
import CasseOS.Lib.PageWalk
import CasseOS.Lib.SmallStep
import CasseOS.Libc.String
import CasseOS.Screen.Vga
import CasseOS.Screen.Font
import CasseOS.Screen.Framebuffer
import CasseOS.Screen.Console
import CasseOS.Screen.VgaGrid
import CasseOS.Screen.VgaConsole
import CasseOS.Screen.FbPixels
import CasseOS.Screen.FbConsole
import CasseOS.Screen.FbRefinement
import CasseOS.Screen.Accesses
import CasseOS.Screen.VgaCursor
import CasseOS.Screen.FbBounds
import CasseOS.Screen.AutoCursor
import CasseOS.Screen.Rectangles
import CasseOS.Screen.Printf
import CasseOS.Libc.Conversions
import CasseOS.Cpu.Interrupt
import CasseOS.Cpu.StackDiscipline
import CasseOS.Cpu.Idt
import CasseOS.Cpu.Pic
import CasseOS.Cpu.Irq
import CasseOS.Cpu.IrqService
import CasseOS.Cpu.Timer
import CasseOS.Mem.Allocator
import CasseOS.Mem.HeapSafety
import CasseOS.Mem.Growth
import CasseOS.Mem.Alignment
import CasseOS.Mem.Room
import CasseOS.Keyboard.Keycode
import CasseOS.Keyboard.Common
import CasseOS.Keyboard.Modifiers
import CasseOS.Keyboard.UsbBoot
import CasseOS.Keyboard.UsbModifiers
import CasseOS.Keyboard.Queue
import CasseOS.Keyboard.Ps2
import CasseOS.Keyboard.CapsLock
import CasseOS.Keyboard.HotPlug
import CasseOS.Keyboard.UsbEvents
import CasseOS.Keyboard.ModifierKeys
import CasseOS.Keyboard.Releases
import CasseOS.Keyboard.UsbHidMapper
import CasseOS.Keyboard.Decoders
import CasseOS.Keyboard.Typing
import CasseOS.Keyboard.Agreement
import CasseOS.Keyboard.Alternation
import CasseOS.Keyboard.LetterCase
import CasseOS.Shell.CommandLine
import CasseOS.Shell.Editor
import CasseOS.Shell.Display
import CasseOS.Shell.MainLoop
import CasseOS.Shell.Batching
import CasseOS.Usb.Uhci
import CasseOS.Usb.Transfer
import CasseOS.Usb.HidKbd
import CasseOS.Usb.Effects
import CasseOS.Usb.Schedule
import CasseOS.Usb.Polling
import CasseOS.Usb.PipeSlots
import CasseOS.Usb.Leaks
import CasseOS.Usb.Controllers
import CasseOS.Pci.Config
import CasseOS.Pci.Bars
import CasseOS.Pci.Scan
import CasseOS.Usb.Service
import CasseOS.Usb.Enumerate
import CasseOS.Usb.Isolation
import CasseOS.Usb.BlobReads
import CasseOS.Usb.ConfigBlob
import CasseOS.Usb.StaleBlob
import CasseOS.Usb.Handler
import CasseOS.Usb.ShortReports
import CasseOS.Usb.Tokens
import CasseOS.Usb.Waiting
import CasseOS.Boot.Uefi
import CasseOS.Boot.BootInfo
import CasseOS.Boot.LoadKernel
import CasseOS.Boot.ExitBootServices
import CasseOS.Boot.Gop
import CasseOS.Boot.Protected
import CasseOS.Boot.Detect
import CasseOS.Boot.PageTables
import CasseOS.Boot.LongMode
import CasseOS.Boot.EfiMain
import CasseOS.Boot.Handoff
import CasseOS.System.Decoding
import CasseOS.System.Kernel
import CasseOS.System.Keys
import CasseOS.System.Commands
