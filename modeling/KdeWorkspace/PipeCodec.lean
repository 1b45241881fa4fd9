import KdeWorkspace.Streams

/-!
What kdm and its helpers tell each other over pipes: the `gSend` and `gRecv` functions of the
core, the greeter and the reader of the configuration.

Integers go as they are. Arrays and strings have their length in front, strings with the zero at their
end counted; a null string or array of strings is a zero. Memory does not run out where a length is
possible at all.
-/
namespace KdeWorkspace.PipeCodec
open Streams

abbrev Bytes := List UInt8

/-- An `int`; where it is unsigned, the same bits. -/
abbrev CInt := BitVec 32

/-- A string in memory, without the zero that ends it. -/
structure CString where
  chars : Bytes
  zeroless : 0 ∉ chars
deriving Repr, DecidableEq

def CString.memory (s : CString) : Bytes := s.chars ++ [0]

/-- The string that begins where a buffer begins. -/
def stringAt (buf : Bytes) : Bytes := buf.takeWhile (· != 0)

def intBytes (val : CInt) : Bytes :=
  [UInt8.ofNat val.toNat,UInt8.ofNat (val.toNat/2^8),UInt8.ofNat (val.toNat/2^16),UInt8.ofNat (val.toNat/2^24)]

def bytesInt : Bytes → CInt
  | [a,b,c,d] => BitVec.ofNat 32 (a.toNat+2^8*b.toNat+2^16*c.toNat+2^24*d.toNat)
  | _ => 0

def lenOf (bytes : Bytes) : CInt := BitVec.ofNat 32 bytes.length

/-- The core writes until all is written. Nothing is written for a negative length, which is an error. -/
def Core.gWrite (buf : Bytes) (len : CInt) : Option Bytes := if len.toInt < 0 then none else some (buf.take len.toNat)

/-- The helpers write once. A negative length makes `write` fail with -1. -/
def Helper.gWrite (buf : Bytes) (len : CInt) : Option Bytes :=
  if len = -1 then some [] else if len.toInt < 0 then none else some (buf.take len.toNat)

section
variable (gWrite : Bytes → CInt → Option Bytes)

def sendInt (val : CInt) : Option Bytes := gWrite (intBytes val) 4

def sendArr (len : CInt) (data : Bytes) : Option Bytes := do
  let head ← gWrite (intBytes len) 4
  let body ← gWrite data len
  return head ++ body

def sendStr : Option CString → Option Bytes
  | some buf => sendArr gWrite (lenOf buf.memory) buf.memory
  | none => gWrite (intBytes 0) 4

def sendNStr (buf : Bytes) (len : CInt) : Option Bytes := do
  let head ← gWrite (intBytes (len+1)) 4
  let body ← gWrite buf len
  let last ← gWrite [0] 1
  return head ++ body ++ last

end

namespace Core

def gSendInt : CInt → Option Bytes := sendInt gWrite
def gSendArr : CInt → Bytes → Option Bytes := sendArr gWrite
def gSendStr : Option CString → Option Bytes := sendStr gWrite
def gSendNStr : Bytes → CInt → Option Bytes := sendNStr gWrite

def sendStrs : List (Option CString) → Option Bytes
  | [] => some []
  | str :: rest => do
    let first ← gSendStr str
    let others ← sendStrs rest
    return first ++ others

def gSendStrArr (num : CInt) (data : List (Option CString)) : Option Bytes := do
  let head ← gWrite (intBytes num) 4
  let body ← sendStrs (if num.toInt < 0 then [] else data.take num.toNat)
  return head ++ body

/-- The null at the end of the array is sent, too. -/
def gSendArgv : Option (List CString) → Option Bytes
  | some argv => gSendStrArr (BitVec.ofNat 32 argv.length+1) (argv.map some ++ [none])
  | none => gWrite (intBytes 0) 4

end Core

namespace Greeter

def gSendInt : CInt → Option Bytes := sendInt Helper.gWrite
def gSendArr : CInt → Bytes → Option Bytes := sendArr Helper.gWrite

/-- A null string is written like an empty array. -/
def gSendStr (buf : Option CString) : Option Bytes :=
  sendArr Helper.gWrite (buf.elim 0 (lenOf ·.memory)) (buf.elim [] (·.memory))

end Greeter

namespace Config

def gSendInt : CInt → Option Bytes := sendInt Helper.gWrite
def gSendArr : CInt → Bytes → Option Bytes := sendArr Helper.gWrite
def gSendStr : Option CString → Option Bytes := sendStr Helper.gWrite
def gSendNStr : Bytes → CInt → Option Bytes := sendNStr Helper.gWrite

end Config

/-- A negative length cannot be read. -/
def gRead (len : CInt) : Reader UInt8 Bytes := if len.toInt < 0 then failure else take len.toNat

def recvInt : Reader UInt8 CInt := do
  let raw ← take 4
  return bytesInt raw

/-- The length and the bytes, unless the length is zero or refused. -/
def recvArr (refused : CInt → Bool) : Reader UInt8 (CInt × Option Bytes) := do
  let len ← recvInt
  if len = 0 || refused len then return (len,none)
  else
    let buf ← gRead len
    return (len,some buf)

def recvStr (refused : CInt → Bool) : Reader UInt8 (Option Bytes) := do
  let (_,buf) ← recvArr refused
  return buf.map stringAt

/-- So many strings. -/
def recvStrs (refused : CInt → Bool) (num : Nat) : Reader UInt8 (List (Option Bytes)) :=
  readAll (fun _ => recvStr refused) (List.replicate num ())

def recvStrArr (refused : CInt → Bool) : Reader UInt8 (CInt × Option (List (Option Bytes))) := do
  let num ← recvInt
  if num = 0 then return (num,none)
  else if num.toInt < 0 then failure
  else
    let argv ← recvStrs refused num.toNat
    return (num,some argv)

namespace Core

/-- The core has a limit for what it allocates, and another one for what it reads into a buffer. -/
def tooLong (len : CInt) : Bool := 0x10000 < len.toNat
def tooLongBuf (len : CInt) : Bool := 0x10000 ≤ len.toNat

def gRecvInt : Reader UInt8 CInt := recvInt
def gRecvCmd : Reader UInt8 CInt := recvInt
def gRecvArr : Reader UInt8 (CInt × Option Bytes) := recvArr tooLong
def gRecvStr : Reader UInt8 (Option Bytes) := recvStr tooLong
def gRecvArrBuf : Reader UInt8 (CInt × Option Bytes) := recvArr tooLongBuf
def gRecvStrBuf : Reader UInt8 (CInt × Option Bytes) := do
  let (len,buf) ← recvArr tooLongBuf
  return (len,buf.map stringAt)
def gRecvStrArr : Reader UInt8 (CInt × Option (List (Option Bytes))) := recvStrArr tooLong
def gRecvArgv : Reader UInt8 (Option (List (Option Bytes))) := do
  let (_,argv) ← recvStrArr tooLong
  return argv

end Core

namespace Greeter

def gRecvInt : Reader UInt8 CInt := recvInt
def gRecvArr : Reader UInt8 (CInt × Option Bytes) := recvArr fun _ => false
def gRecvStr : Reader UInt8 (Option Bytes) := recvStr fun _ => false
def gRecvStrArr : Reader UInt8 (CInt × Option (List (Option Bytes))) := recvStrArr fun _ => false

end Greeter

namespace Config

def gRecvInt : Reader UInt8 CInt := recvInt
def gRecvCmd : Reader UInt8 CInt := recvInt
def gRecvStr : Reader UInt8 (Option Bytes) := recvStr fun _ => false

end Config

inductive Program
  | core
  | greeter
  | config
deriving Repr, DecidableEq

/-- A value with the functions that send it and receive it. -/
inductive Item
  | int (val : CInt)
  | cmd (val : CInt)
  | str (s : Option CString)
  | nStr (s : CString)
  | strBuf (s : Option CString)
  | nStrBuf (s : CString)
  | arr (data : Bytes)
  | arrBuf (data : Bytes)
  | strArr (argv : Option (List CString))
  | argv (argv : Option (List CString))
deriving Repr, DecidableEq

inductive Received
  | int (val : CInt)
  | str (s : Option Bytes)
  | strBuf (len : CInt) (s : Option Bytes)
  | arr (len : CInt) (data : Option Bytes)
  | strArr (num : CInt) (argv : Option (List (Option Bytes)))
  | argv (argv : Option (List (Option Bytes)))
deriving Repr, DecidableEq

/-- What a program sends for a value; it fails where the program has no such function. -/
def send : Program → Item → Option Bytes
  | .core,.int val => Core.gSendInt val
  | .core,.cmd val => Core.gSendInt val
  | .core,.str s => Core.gSendStr s
  | .core,.nStr s => Core.gSendNStr s.chars (lenOf s.chars)
  | .core,.strBuf s => Core.gSendStr s
  | .core,.nStrBuf s => Core.gSendNStr s.chars (lenOf s.chars)
  | .core,.arr data => Core.gSendArr (lenOf data) data
  | .core,.arrBuf data => Core.gSendArr (lenOf data) data
  | .core,.strArr argv => Core.gSendArgv argv
  | .core,.argv argv => Core.gSendArgv argv
  | .greeter,.int val => Greeter.gSendInt val
  | .greeter,.cmd val => Greeter.gSendInt val
  | .greeter,.str s => Greeter.gSendStr s
  | .greeter,.strBuf s => Greeter.gSendStr s
  | .greeter,.arr data => Greeter.gSendArr (lenOf data) data
  | .greeter,.arrBuf data => Greeter.gSendArr (lenOf data) data
  | .greeter,_ => none
  | .config,.int val => Config.gSendInt val
  | .config,.cmd val => Config.gSendInt val
  | .config,.str s => Config.gSendStr s
  | .config,.nStr s => Config.gSendNStr s.chars (lenOf s.chars)
  | .config,.strBuf s => Config.gSendStr s
  | .config,.nStrBuf s => Config.gSendNStr s.chars (lenOf s.chars)
  | .config,.arr data => Config.gSendArr (lenOf data) data
  | .config,.arrBuf data => Config.gSendArr (lenOf data) data
  | .config,_ => none

def recv : Program → Item → Reader UInt8 Received
  | .core,.int _ => .int <$> Core.gRecvInt
  | .core,.cmd _ => .int <$> Core.gRecvCmd
  | .core,.str _ => .str <$> Core.gRecvStr
  | .core,.nStr _ => .str <$> Core.gRecvStr
  | .core,.strBuf _ => (fun got => .strBuf got.1 got.2) <$> Core.gRecvStrBuf
  | .core,.nStrBuf _ => (fun got => .strBuf got.1 got.2) <$> Core.gRecvStrBuf
  | .core,.arr _ => (fun got => .arr got.1 got.2) <$> Core.gRecvArr
  | .core,.arrBuf _ => (fun got => .arr got.1 got.2) <$> Core.gRecvArrBuf
  | .core,.strArr _ => (fun got => .strArr got.1 got.2) <$> Core.gRecvStrArr
  | .core,.argv _ => .argv <$> Core.gRecvArgv
  | .greeter,.int _ => .int <$> Greeter.gRecvInt
  | .greeter,.str _ => .str <$> Greeter.gRecvStr
  | .greeter,.nStr _ => .str <$> Greeter.gRecvStr
  | .greeter,.arr _ => (fun got => .arr got.1 got.2) <$> Greeter.gRecvArr
  | .greeter,.strArr _ => (fun got => .strArr got.1 got.2) <$> Greeter.gRecvStrArr
  | .greeter,_ => failure
  | .config,.int _ => .int <$> Config.gRecvInt
  | .config,.cmd _ => .int <$> Config.gRecvCmd
  | .config,.str _ => .str <$> Config.gRecvStr
  | .config,.nStr _ => .str <$> Config.gRecvStr
  | .config,_ => failure

def sendAll (writer : Program) : List Item → Option Bytes
  | [] => some []
  | item :: rest => do
    let first ← send writer item
    let others ← sendAll writer rest
    return first ++ others

def recvAll (reader : Program) (items : List Item) : Reader UInt8 (List Received) := readAll (recv reader) items

end KdeWorkspace.PipeCodec
