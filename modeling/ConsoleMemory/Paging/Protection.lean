import ConsoleMemory.Paging.Entry

/-!
Page protections as a program asks for them, and the entry bits that grant them. There are eight
levels of access, of which exactly one is asked for, and three modifiers. Execution is not enforced
and copying on write is not supported, so every accepted request means read-only or read-write.
Requests that are refused are refused for the first rule they break.
-/

namespace ConsoleMemory

/-- A set of protection flags, together with any bits that name no flag. -/
structure Protection where
  bits : UInt32
deriving DecidableEq, Repr

inductive ProtectionError where
  /-- Bits that name no flag, or flags that the kernel may not ask for. -/
  | unknownFlags (bits : Nat)
  | noAccessWithModifiers
  | conflictingCacheModes
  | ambiguousAccess
  | unsupportedAccess (level : Nat)
deriving DecidableEq, Repr

namespace ProtectionError

def message : ProtectionError → String
  | unknownFlags bits => s!"unknown or disallowed protection bits {Text.hex 0 bits}"
  | noAccessWithModifiers => "PAGE_NOACCESS cannot be combined with other modifiers"
  | conflictingCacheModes => "PAGE_NOCACHE and PAGE_WRITECOMBINE are mutually exclusive"
  | ambiguousAccess => "exactly one access level must be requested"
  | unsupportedAccess level => s!"access level {Text.hex 0 level} is not supported"

end ProtectionError

namespace Protection

inductive Flag where
  | noAccess
  | readOnly
  | readWrite
  | writeCopy
  | execute
  | executeRead
  | executeReadWrite
  | executeWriteCopy
  | guardPage
  | noCache
  | writeCombine
deriving DecidableEq, Repr

namespace Flag

/-- All flags, the lowest bit first. -/
def all : List Flag :=
  [noAccess, readOnly, readWrite, writeCopy, execute, executeRead, executeReadWrite,
    executeWriteCopy, guardPage, noCache, writeCombine]

def position : Flag → Nat
  | noAccess => 0
  | readOnly => 1
  | readWrite => 2
  | writeCopy => 3
  | execute => 4
  | executeRead => 5
  | executeReadWrite => 6
  | executeWriteCopy => 7
  | guardPage => 8
  | noCache => 9
  | writeCombine => 10

def name : Flag → String
  | noAccess => "NOACCESS"
  | readOnly => "READONLY"
  | readWrite => "READWRITE"
  | writeCopy => "WRITECOPY"
  | execute => "EXECUTE"
  | executeRead => "EXECUTE_READ"
  | executeReadWrite => "EXECUTE_READWRITE"
  | executeWriteCopy => "EXECUTE_WRITECOPY"
  | guardPage => "GUARD"
  | noCache => "NOCACHE"
  | writeCombine => "WRITECOMBINE"

def mask (f : Flag) : Nat := 1 <<< f.position

end Flag

def has (p : Protection) (f : Flag) : Bool := p.bits.toNat.testBit f.position

/-- The set that holds the given flags and nothing else. -/
def ofFlags (flags : List Flag) : Protection :=
  ⟨.ofNat (flags.foldl (fun bits f => bits ||| f.mask) 0)⟩

/-- The bits in the place of the eight access levels. -/
def accessMask : Nat := Flag.guardPage.mask - 1

/-- The bits of the two cache modes. -/
def cacheMask : Nat := Flag.noCache.mask + Flag.writeCombine.mask

/-- The bits that name no flag. -/
def unknownBits (p : Protection) : Nat := p.bits.toNat >>> 11 <<< 11

def isKnown (p : Protection) : Bool := p.unknownBits == 0

/-- The names of the flags from the lowest bit up, then the bits that name none. -/
def text (p : Protection) : String :=
  let names := (Flag.all.filter p.has).map Flag.name
  let unknown := if p.isKnown then [] else [Text.lowerHex p.unknownBits]
  let parts := names ++ unknown
  let inside := if parts.isEmpty then Text.lowerHex 0 else " | ".intercalate parts
  s!"XboxProtection({inside})"

/-- Whether the access asked for allows writing. Plain and executable levels mean the same. -/
def writable? (p : Protection) : Except ProtectionError Bool :=
  let plain := p.bits.toNat % 16
  let executable := p.bits.toNat / 16 % 16
  if (plain == 0) == (executable == 0) then .error .ambiguousAccess
  else match plain + executable with
    | 1 | 2 => .ok false
    | 4 => .ok true
    | level => .error (.unsupportedAccess level)

/-- The entry bits that grant a request made for user code. Pages without access and guard pages are
not valid; an entry without a frame is returned. -/
def userEntry (p : Protection) : Except ProtectionError Entry := do
  unless p.isKnown do
    throw (.unknownFlags p.unknownBits)
  if p.has .noAccess && (p.has .guardPage || p.has .noCache || p.has .writeCombine) then
    throw .noAccessWithModifiers
  if p.has .noCache && p.has .writeCombine then
    throw .conflictingCacheModes
  let write ← p.writable?
  return Entry.zero
    |>.withFlag .write write
    |>.withFlag .valid (!p.has .noAccess && !p.has .guardPage)
    |>.withFlag .guardPage (p.has .guardPage)
    |>.withFlag .cacheDisable (p.has .noCache)
    |>.withFlag .writeThrough (p.has .writeCombine)

/-- The flags that the kernel may ask for. -/
def systemMask : Nat := Flag.readOnly.mask + Flag.readWrite.mask + cacheMask

/-- The bits outside what the kernel may ask for. -/
def disallowedBits (p : Protection) : Nat := p.bits.toNat &&& (0xFFFFFFFF ^^^ systemMask)

/-- The entry bits that grant a request made for the kernel, whose mappings are always valid. -/
def systemEntry (p : Protection) : Except ProtectionError Entry := do
  unless p.disallowedBits == 0 do
    throw (.unknownFlags p.disallowedBits)
  if p.has .readOnly == p.has .readWrite then
    throw .ambiguousAccess
  if p.has .noCache && p.has .writeCombine then
    throw .conflictingCacheModes
  return (⟨.ofNat Entry.kernelPageBits⟩ : Entry)
    |>.withFlag .write (p.has .readWrite)
    |>.withFlag .cacheDisable (p.has .noCache)
    |>.withFlag .writeThrough (p.has .writeCombine)

/-- The request that an entry answers, as far as its bits tell. -/
def ofEntry (e : Entry) : Protection :=
  let access := if e.has .write then Flag.readWrite else .readOnly
  let flags :=
    if e.valid then [access]
    else if e.has .guardPage then [access, .guardPage]
    else [.noAccess]
  let cache :=
    if e.has .cacheDisable then [Flag.noCache]
    else if e.has .writeThrough then [.writeCombine]
    else []
  ofFlags (flags ++ cache)

example : (ofEntry ⟨0x202⟩).text = "XboxProtection(READWRITE | GUARD)" := by decide +kernel

end Protection

end ConsoleMemory
