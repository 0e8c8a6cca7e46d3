import ConsoleMemory.Abort
import ConsoleMemory.Accessors.Choice
import ConsoleMemory.Accessors.DeriveError
import ConsoleMemory.Accessors.Grammar.Annotation
import ConsoleMemory.Accessors.Grammar.Definition
import ConsoleMemory.Accessors.Grammar.Expression
import ConsoleMemory.Accessors.Grammar.Path
import ConsoleMemory.Accessors.Grammar.Pattern
import ConsoleMemory.Accessors.Grammar.Type
import ConsoleMemory.Accessors.Item
import ConsoleMemory.Accessors.Methods
import ConsoleMemory.Accessors.Outline
import ConsoleMemory.Accessors.Reader
import ConsoleMemory.Accessors.Setting
import ConsoleMemory.Accessors.Token
import ConsoleMemory.Address.Basic
import ConsoleMemory.Address.PageSize
import ConsoleMemory.Bits.Field
import ConsoleMemory.Bits.LittleEndian
import ConsoleMemory.Decimal.Number
import ConsoleMemory.Decimal.Shortest
import ConsoleMemory.Frames.PageType
import ConsoleMemory.Frames.Record
import ConsoleMemory.Manager.Records
import ConsoleMemory.FreeList.Basic
import ConsoleMemory.Pfn
import ConsoleMemory.FreeList.Chain
import ConsoleMemory.FreeList.Cursor
import ConsoleMemory.Guest.Image
import ConsoleMemory.Guest.Memory
import ConsoleMemory.Guest.PageWalk
import ConsoleMemory.Guest.Ram
import ConsoleMemory.Guest.Tlb
import ConsoleMemory.Layout.Basic
import ConsoleMemory.Layout.MemoryMap
import ConsoleMemory.Log.Level
import ConsoleMemory.Log.Note
import ConsoleMemory.Manager.Basic
import ConsoleMemory.Manager.Boot
import ConsoleMemory.Manager.Consistency
import ConsoleMemory.Manager.Entries
import ConsoleMemory.Manager.Tables
import ConsoleMemory.Paging.Entry
import ConsoleMemory.Paging.Protection
import ConsoleMemory.Paging.SelfMap
import ConsoleMemory.Text.Basic
import ConsoleMemory.Text.Quoted
import ConsoleMemory.Text.Unprintable
import ConsoleMemory.Proofs.FreeList.Alignment
import ConsoleMemory.Proofs.FreeList.Links
import ConsoleMemory.Proofs.FreeList.Charging
import ConsoleMemory.Proofs.FreeList.History
import ConsoleMemory.Proofs.FreeList.Pools
import ConsoleMemory.Proofs.FreeList.DoubleFree
import ConsoleMemory.Proofs.FreeList.RoundTrip
import ConsoleMemory.Proofs.Boot.Database
import ConsoleMemory.Proofs.Boot.Directory
import ConsoleMemory.Proofs.Boot.Furnished
import ConsoleMemory.Proofs.Boot.Ready
import ConsoleMemory.Proofs.Guest.Contract
import ConsoleMemory.Proofs.Guest.Replay
import ConsoleMemory.Proofs.Guest.SelfMap
import ConsoleMemory.Proofs.Guest.Safety
import ConsoleMemory.Proofs.Guest.Bytes
import ConsoleMemory.Proofs.Manager.Consistency
import ConsoleMemory.Proofs.Manager.DirectoryAccess
import ConsoleMemory.Proofs.Manager.Entries
import ConsoleMemory.Proofs.Manager.Filling
import ConsoleMemory.Proofs.Manager.Guest
import ConsoleMemory.Proofs.Manager.Ownership
import ConsoleMemory.Proofs.Session.Actions
import ConsoleMemory.Proofs.Session.Committing
import ConsoleMemory.Proofs.Session.Frames
import ConsoleMemory.Proofs.Session.Releasing
import ConsoleMemory.Proofs.Session.Runs
import ConsoleMemory.Proofs.Session.Edits
import ConsoleMemory.Proofs.Session.Pools
import ConsoleMemory.Proofs.Session.Database
import ConsoleMemory.Proofs.Session.Windows
import ConsoleMemory.Proofs.Session.Verdicts
import ConsoleMemory.Proofs.Session.DirectoryEnd
import ConsoleMemory.Proofs.Session.Sweeping
import ConsoleMemory.Proofs.Session.Undoing
import ConsoleMemory.Proofs.Session.Marking
import ConsoleMemory.Proofs.Session.Splitting
import ConsoleMemory.Proofs.FreeList.Reading
import ConsoleMemory.Proofs.Paging.Spans
import ConsoleMemory.Proofs.Paging.Translation
import ConsoleMemory.Proofs.Paging.Window
import ConsoleMemory.Proofs.Bits.Independence
import ConsoleMemory.Proofs.Accessors.Requested
