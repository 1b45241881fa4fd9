import KdeWorkspace.Streams

/-!
The reload of the XDMCP access database (`scanAccessDatabase`) from the reader of the configuration.

The old arrays are freed and the counts overwritten while the answer is read, and what the database
depends on is noted before. The answer can break off anywhere.
-/
namespace KdeWorkspace.AccessReload
open Streams

abbrev Bytes := List UInt8

/-- An integer, or bytes with their length in front. -/
inductive Word
  | int (val : Int)
  | bytes (data : Bytes)
deriving Repr, DecidableEq

def recvInt : Reader Word Int
  | .int val :: rest => some (val,rest)
  | _ => none

/-- A string or an array. -/
def recvBytes : Reader Word Bytes
  | .bytes data :: rest => some (data,rest)
  | _ => none

/-- A field of sixteen bits; the integer is cut off. -/
abbrev Short := BitVec 16

def recvShort : Reader Word Short := do
  let val ← recvInt
  return BitVec.ofInt 16 val

inductive HostEntry
  | aliasHost (aliasPattern : Bytes)
  | address (hostAddress : Bytes) (connectionType : Nat)
  | pattern (hostPattern : Bytes)
  | broadcast
deriving Repr, DecidableEq

structure ListenEntry where
  iface : Short
  mcasts : Short
  nmcasts : Short
deriving Repr, DecidableEq

structure AliasEntry where
  name : Bytes
  hosts : Short
  nhosts : Short
deriving Repr, DecidableEq

structure AclEntry where
  entries : Short
  nentries : Short
  hosts : Short
  nhosts : Short
  flags : Short
deriving Repr, DecidableEq

/-- A host as it is sent: an address with its family, or a type that nobody knows. -/
inductive SentHost
  | aliasHost (aliasPattern : Bytes)
  | address (hostAddress : Bytes) (family : Int)
  | pattern (hostPattern : Bytes)
  | broadcast
  | unknown (type : Int) (other : type < 0 ∨ 3 < type)
deriving Repr, DecidableEq

/-- `AF_INET` and `AF_INET6` have their own types. -/
def connectionType (family : Int) : Nat := if family = 2 then 0 else if family = 10 then 6 else 256

def SentHost.words : SentHost → List Word
  | .aliasHost aliasPattern => [.int 0,.bytes aliasPattern]
  | .address hostAddress family => [.int 1,.bytes hostAddress,.int family]
  | .pattern hostPattern => [.int 2,.bytes hostPattern]
  | .broadcast => [.int 3]
  | .unknown type _ => [.int type]

def ListenEntry.words (e : ListenEntry) : List Word := [.int e.iface.toInt,.int e.mcasts.toInt,.int e.nmcasts.toInt]

def AliasEntry.words (e : AliasEntry) : List Word := [.bytes e.name,.int e.hosts.toInt,.int e.nhosts.toInt]

def AclEntry.words (e : AclEntry) : List Word :=
  [.int e.entries.toInt,.int e.nentries.toInt,.int e.hosts.toInt,.int e.nhosts.toInt,.int e.flags.toInt]

/-- The database that is sent, with no more entries than the counts of the core can hold. -/
structure Sent where
  hosts : List SentHost
  listens : List ListenEntry
  aliases : List AliasEntry
  acls : List AclEntry
  nChars : Int
  few : hosts.length < 2^15 ∧ listens.length < 2^15 ∧ aliases.length < 2^15 ∧ acls.length < 2^15
deriving Repr, DecidableEq

def Sent.words (db : Sent) : List Word :=
  .int db.hosts.length :: .int db.listens.length :: .int db.aliases.length :: .int db.acls.length :: .int db.nChars ::
    (db.hosts.flatMap SentHost.words ++ (db.listens.flatMap ListenEntry.words ++
      (db.aliases.flatMap AliasEntry.words ++ db.acls.flatMap AclEntry.words)))

/-- The answer to `GC_Files`: the main file, and the access file that depends on it. Then, for each kind of
    configuration, the file it is in. -/
def filesWords (kdmrc xaccess : Bytes) : List Word := [.int 2,.bytes kdmrc,.int (-1),.bytes xaccess,.int 0]
def mapWords : List Word := [.int 0,.int 0,.int 1]

/-- Memory for an array. -/
inductive Cells (α : Type)
  | null
  | freed
  | live (cells : List (Option α))
deriving Repr, DecidableEq

structure CfgDep where
  name : Option Bytes
  time : Int
deriving Repr, DecidableEq

structure AccArr where
  hostList : Cells HostEntry
  listenList : Cells ListenEntry
  aliasList : Cells AliasEntry
  acList : Cells AclEntry
  nHosts : Short
  nListens : Short
  nAliases : Short
  nAcls : Short
  dep : CfgDep
deriving Repr, DecidableEq

structure CfgFile where
  name : Bytes
  depidx : Int
  deptime : Int
deriving Repr, DecidableEq

/-- What the core keeps, and what it can still receive from the reader. -/
structure Core where
  cfgFiles : List CfgFile
  cfgMap : List Int
  accData : AccArr
  stream : List Word
deriving Repr, DecidableEq

/-- The surroundings of a rescan: the times of files, whether the requests can be written and whether there is
    memory. -/
structure Env where
  mTime : Bytes → Int
  filesAsked : Bool
  filesMemory : Bool
  asked : Bool
  memory : Bool

/-- The names of files and what they depend on; an earlier file of the list has a time. -/
def recvFiles (mTime : Bytes → Int) : Nat → List CfgFile → Reader Word (List CfgFile)
  | 0,cf => pure cf
  | n+1,cf => do
    let name ← recvBytes
    let dep ← recvInt
    let deptime := if dep = -1 then 0 else mTime ((cf[dep.toNat]?).elim name (·.name))
    recvFiles mTime n (cf ++ [⟨name,dep,deptime⟩])

/-- Where the kinds of configuration are; a failure leaves what was there. -/
def recvMap : List Nat → Core → Bool → Core × Option Bool
  | [],c,ret => (c,some ret)
  | i :: rest,c,ret =>
    match recvInt c.stream with
    | none => (c,none)
    | some (val,stream) => recvMap rest { c with cfgMap := c.cfgMap.set i val, stream := stream } (ret && 0 ≤ val)

/-- The result is none where an error leaves the function by a jump. -/
def getDeps (env : Env) (c : Core) : Core × Option Bool :=
  if !env.filesAsked then (c,none)
  else
    match recvInt c.stream with
    | none => (c,none)
    | some (ncf,stream) =>
      if !env.filesMemory then ({ c with stream := stream },some false)
      else
        match recvFiles env.mTime ncf.toNat [] stream with
        | none => (c,none)
        | some (files,stream) => recvMap [0,1,2] { c with cfgFiles := files, stream := stream } true

/-- Whether a file that this one depends on has changed; the depth is that of the list. -/
def checkDep (mTime : Bytes → Int) (files : List CfgFile) : Nat → Int → Bool
  | 0,_ => false
  | n+1,idx =>
    match files[idx.toNat]? with
    | none => false
    | some file =>
      if file.depidx = -1 then false
      else checkDep mTime files n file.depidx || mTime ((files[file.depidx.toNat]?).elim [] (·.name)) != file.deptime

namespace Core

/-- The index of the access file. -/
def idx (c : Core) : Int := c.cfgMap.getD 2 0

def depChanged (mTime : Bytes → Int) (c : Core) : Bool := checkDep mTime c.cfgFiles c.cfgFiles.length c.idx

/-- Notes name and time of the access file, and tells whether they are new. -/
def noteDep (mTime : Bytes → Int) (c : Core) : Core × Int :=
  match c.cfgFiles[c.idx.toNat]? with
  | none => (c,0)
  | some file =>
    let mt := mTime file.name
    if c.accData.dep.name ≠ some file.name ∨ c.accData.dep.time ≠ mt then
      ({ c with accData := { c.accData with dep := ⟨some file.name,mt⟩ } },1)
    else (c,0)

end Core

def needsReScan (env : Env) (c : Core) : Core × Option Int :=
  if c.depChanged env.mTime then
    match getDeps env c with
    | (c,none) => (c,none)
    | (c,some false) => (c,some (-1))
    | (c,some true) => let (c,ret) := c.noteDep env.mTime; (c,some ret)
  else let (c,ret) := c.noteDep env.mTime; (c,some ret)

def startConfig (env : Env) (force : Bool) (c : Core) : Core × Option Int :=
  match needsReScan env c with
  | (c,none) => (c,none)
  | (c,some ret) =>
    if ret < 0 ∨ (ret = 0 ∧ !force) then (c,some ret)
    else if !env.asked then (c,none)
    else (c,some 1)

def recvHost : Reader Word HostEntry := do
  let type ← recvInt
  if type = 0 then
    let aliasPattern ← recvBytes
    return .aliasHost aliasPattern
  else if type = 2 then
    let hostPattern ← recvBytes
    return .pattern hostPattern
  else if type = 1 then
    let hostAddress ← recvBytes
    let family ← recvInt
    return .address hostAddress (connectionType family)
  else if type = 3 then return .broadcast
  else failure

def recvListen : Reader Word ListenEntry := do
  let iface ← recvShort
  let mcasts ← recvShort
  let nmcasts ← recvShort
  return ⟨iface,mcasts,nmcasts⟩

def recvAlias : Reader Word AliasEntry := do
  let name ← recvBytes
  let hosts ← recvShort
  let nhosts ← recvShort
  return ⟨name,hosts,nhosts⟩

def recvAcl : Reader Word AclEntry := do
  let entries ← recvShort
  let nentries ← recvShort
  let hosts ← recvShort
  let nhosts ← recvShort
  let flags ← recvShort
  return ⟨entries,nentries,hosts,nhosts,flags⟩

def count (n : Short) : Nat := n.toInt.toNat

def Cells.free {α : Type} : Cells α → Cells α
  | .null => .null
  | _ => .freed

/-- All arrays are in the memory that `hostList` has; the others keep pointers into it. -/
def AccArr.freed (acc : AccArr) : AccArr :=
  { acc with
    hostList := acc.hostList.free
    listenList := acc.listenList.free
    aliasList := acc.aliasList.free
    acList := acc.acList.free }

def blank {α : Type} (n : Short) : Cells α := .live (List.replicate (count n) none)

def AccArr.allocated (acc : AccArr) : AccArr :=
  { acc with
    hostList := blank acc.nHosts
    listenList := blank acc.nListens
    aliasList := blank acc.nAliases
    acList := blank acc.nAcls }

/-- The entries; each array is filled as far as the answer goes. -/
def recvEntries (acc : AccArr) (stream : List Word) : AccArr × Bool :=
  match fill recvHost (count acc.nHosts) stream with
  | (hosts,none) => ({ acc with hostList := .live hosts },false)
  | (hosts,some stream) =>
    let acc := { acc with hostList := .live hosts }
    match fill recvListen (count acc.nListens) stream with
    | (listens,none) => ({ acc with listenList := .live listens },false)
    | (listens,some stream) =>
      let acc := { acc with listenList := .live listens }
      match fill recvAlias (count acc.nAliases) stream with
      | (aliases,none) => ({ acc with aliasList := .live aliases },false)
      | (aliases,some stream) =>
        let acc := { acc with aliasList := .live aliases }
        match fill recvAcl (count acc.nAcls) stream with
        | (acls,none) => ({ acc with acList := .live acls },false)
        | (acls,some _) => ({ acc with acList := .live acls },true)

def recvDatabase (memory : Bool) (acc : AccArr) (stream : List Word) : AccArr × Bool :=
  let acc := acc.freed
  match recvShort stream with
  | none => (acc,false)
  | some (nHosts,stream) =>
    let acc := { acc with nHosts := nHosts }
    match recvShort stream with
    | none => (acc,false)
    | some (nListens,stream) =>
      let acc := { acc with nListens := nListens }
      match recvShort stream with
      | none => (acc,false)
      | some (nAliases,stream) =>
        let acc := { acc with nAliases := nAliases }
        match recvShort stream with
        | none => (acc,false)
        | some (nAcls,stream) =>
          let acc := { acc with nAcls := nAcls }
          match recvInt stream with
          | none => (acc,false)
          | some (_,stream) =>
            if !memory then ({ acc with hostList := .null },false)
            else recvEntries acc.allocated stream

inductive Outcome
  | unchanged
  | loaded
  | failed
deriving Repr, DecidableEq

def scanAccessDatabase (env : Env) (force : Bool) (c : Core) : Core × Outcome :=
  match startConfig env force c with
  | (c,none) => (c,.failed)
  | (c,some ret) =>
    if ret < 0 then (c,.failed)
    else if ret = 0 then (c,.unchanged)
    else
      let (acc,complete) := recvDatabase env.memory c.accData c.stream
      ({ c with accData := acc },if complete then .loaded else .failed)

end KdeWorkspace.AccessReload
