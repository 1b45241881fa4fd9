import KdeWorkspace.AccessAtomicity
import KdeWorkspace.HostPatterns

/-!
Who may connect over XDMCP, and where indirect queries go (`matchAclEntry` and its callers).

One ordered list has the entries for both kinds of query: those without a host
list are for direct and broadcast queries, those with one for indirect queries.
The test for the kind compares the number of hosts with a flag, which is right for
indirect queries; for the others it passes over entries with one host only, so an
entry with more hosts can answer them (`queries_right_iff`).
-/
namespace KdeWorkspace.AccessControl
open AccessReload AccessAtomicity HostPatterns List Option Bool

def maxDepth : Nat := 32

structure ReadAlias where
  entry : AliasEntry
  hasBad : Bool
deriving Repr, DecidableEq

/-- A piece of the list of hosts. -/
def Inside (fh nh : Short) (hosts : List HostEntry) : Prop :=
  0 ≤ fh.toInt ∧ 0 ≤ nh.toInt ∧ fh.toInt+nh.toInt ≤ hosts.length

/-- What `readAccessFile` has read when it comes to the check of the aliases. -/
structure AccessFile where
  hosts : List HostEntry
  listens : List ListenEntry
  aliases : List ReadAlias
  acls : List AclEntry
  error : Bool
  aliasesInside : ∀ a ∈ aliases, Inside a.entry.hosts a.entry.nhosts hosts
  aclsInside : ∀ e ∈ acls, Inside e.entries e.nentries hosts ∧ Inside e.hosts e.nhosts hosts

/-- What lies outside: the names of addresses, the local address, what was chosen for a client before, and what
    comparing strings behind their ends yields. -/
structure Env where
  networkAddressToHostname : Nat → Bytes → Option Bytes
  localAddress : Bytes
  indirectChoice : Bytes → Bytes → Nat → Option Bytes
  beyond : List CChar → List CChar → Bool

/-- The string in a buffer. -/
def cstring : Bytes → List CChar
  | [] => []
  | c :: rest => if h : c = 0 then [] else ⟨c,h⟩ :: cstring rest

/-- The entries of an array; there is no result when they are not all in it. -/
def range (hosts : List HostEntry) (fh nh : Short) : Option (List HostEntry) :=
  if 0 ≤ fh.toInt ∧ 0 ≤ nh.toInt ∧ fh.toInt+nh.toInt ≤ hosts.length then some ((hosts.drop fh.toInt.toNat).take nh.toInt.toNat)
  else none

variable (env : Env)

def matched (string : Option Bytes) (pattern : Bytes) : Bool :=
  (patternMatch (string.map cstring) (cstring pattern)).getD (env.beyond ((string.map cstring).getD []) (cstring pattern))

/-- The aliases that a pattern stands for: the loop of `checkHostlist`, and what comes after it. -/
def checkAliases (aliases : List ReadAlias) (checkNot : Bool) (check : AliasEntry → Option Bool) (aliasPattern : Bytes) :
    Option Bool := do
  let found ← aliases.anyM fun a =>
    if matched env (some a.entry.name) aliasPattern then
      if checkNot && a.hasBad then some true else check a.entry
    else some false
  let am := aliases.any fun a => matched env (some a.entry.name) aliasPattern
  some (found || (!am && checkNot))

/-- `checkHostlist`, with the depth that is left. What is only reported changes no result. -/
def checkHostlist (f : AccessFile) (checkNot : Bool) : Nat → Short → Short → Option Bool
  | 0,fh,nh => do
    (← range f.hosts fh nh).anyM fun
      | .aliasHost _ => some true
      | _ => some false
  | left+1,fh,nh => do
    (← range f.hosts fh nh).anyM fun
      | .aliasHost aliasPattern =>
        checkAliases env f.aliases checkNot (fun a => checkHostlist f checkNot left a.hosts a.nhosts) aliasPattern
      | _ => some false

def aNotAllowed : Short := 1
def aNotBroadcast : Short := 2
def aUseChooser : Short := 2

def hasFlag (e : AclEntry) (flag : Short) : Bool := e.flags &&& flag != 0

def checkAcl (f : AccessFile) (e : AclEntry) : Option Bool := do
  if ← checkHostlist env f (hasFlag e aNotAllowed) maxDepth e.entries e.nentries then some true
  else checkHostlist env f false maxDepth e.hosts e.nhosts

/-- The database that is sent, which is empty after an error. -/
def sent (f : AccessFile) : Option Database := do
  let bad ← f.acls.mapM (checkAcl env f)
  some (if f.error || bad.any id then noEntries else ⟨f.hosts,f.listens,f.aliases.map ReadAlias.entry,f.acls⟩)

variable (db : Database)

def scanHost (scan : AliasEntry → Option Bool) (clientAddress : Bytes) (connectionType : Nat) : HostEntry → Option Bool
  | .aliasHost aliasPattern =>
    db.aliases.anyM fun a => if matched env (some a.name) aliasPattern then scan a else some false
  | .pattern hostPattern => some (matched env (env.networkAddressToHostname connectionType clientAddress) hostPattern)
  | .address hostAddress type => some (type = connectionType ∧ hostAddress = clientAddress)
  | .broadcast => some false

/-- `scanEntrylist`, with the depth of aliases in aliases; there is no result when that does not suffice. -/
def scanEntrylist (clientAddress : Bytes) (connectionType : Nat) : Nat → Short → Short → Option Bool
  | 0,_,_ => none
  | levels+1,fh,nh => do
    (← range db.hosts fh nh).anyM
      (scanHost env db (fun a => scanEntrylist clientAddress connectionType levels a.hosts a.nhosts) clientAddress connectionType)

def scanEntries (clientAddress : Bytes) (connectionType : Nat) (e : AclEntry) : Option Bool :=
  scanEntrylist env db clientAddress connectionType (maxDepth+1) e.entries e.nentries

/-- The loop of `matchAclEntry`. -/
def firstEntry (scan : AclEntry → Option Bool) (direct : Int) : List AclEntry → Option (Option AclEntry)
  | [] => some none
  | e :: acls =>
    if e.nhosts.toInt ≠ direct then do
      if ← scan e then some (some e) else firstEntry scan direct acls
    else firstEntry scan direct acls

def matchAclEntry (clientAddress : Bytes) (connectionType : Nat) (direct : Bool) : Option (Option AclEntry) :=
  firstEntry (scanEntries env db clientAddress connectionType) (if direct then 1 else 0) db.acls

/-- A call of the function for the hosts. -/
inductive Call
  | host (connectionType : Nat) (hostAddress : Bytes)
  | broadcast
deriving Repr, DecidableEq

structure Scanned where
  calls : List Call
  haveLocalhost : Bool
deriving Repr, DecidableEq

def Scanned.append (first second : Scanned) : Scanned := ⟨first.calls ++ second.calls,first.haveLocalhost || second.haveLocalhost⟩

def nothing : Scanned := ⟨[],false⟩

/-- A loop whose rounds each call the function and may meet the local host. -/
def gather {α : Type} (round : α → Option Scanned) : List α → Option Scanned
  | [] => some nothing
  | a :: rest => do
    let first ← round a
    let others ← gather round rest
    some (first.append others)

def forwardHost (scan : AliasEntry → Option Scanned) (connectionType : Nat) (broadcast notes : Bool) : HostEntry → Option Scanned
  | .aliasHost aliasPattern =>
    gather (fun a => if matched env (some a.name) aliasPattern then scan a else some nothing) db.aliases
  | .address hostAddress _ =>
    some (if notes ∧ env.localAddress = hostAddress then ⟨[],true⟩ else ⟨[.host connectionType hostAddress],false⟩)
  | .broadcast => some (if broadcast then ⟨[.broadcast],false⟩ else nothing)
  | .pattern _ => some nothing

/-- `scanHostlist`; `notes` says whether it is given a place for `haveLocalhost`. -/
def scanHostlist (connectionType : Nat) (broadcast notes : Bool) : Nat → Short → Short → Option Scanned
  | 0,_,_ => none
  | levels+1,fh,nh => do
    gather (forwardHost env db (fun a => scanHostlist connectionType broadcast notes levels a.hosts a.nhosts)
      connectionType broadcast notes) (← range db.hosts fh nh)

/-- What `forEachMatchingIndirectHost` does with the entry. -/
def forward (clientAddress clientPort : Bytes) (connectionType : Nat) : Option AclEntry → Option Scanned
  | none => some nothing
  | some e =>
    if hasFlag e aNotAllowed then some nothing
    else if hasFlag e aUseChooser then
      match env.indirectChoice clientAddress clientPort connectionType with
      | none => some ⟨[],true⟩
      | some choice => some (if env.localAddress = choice then ⟨[],true⟩ else ⟨[.host connectionType choice],false⟩)
    else scanHostlist env db connectionType false true (maxDepth+1) e.hosts e.nhosts

def forEachMatchingIndirectHost (clientAddress clientPort : Bytes) (connectionType : Nat) : Option Scanned := do
  forward env db clientAddress clientPort connectionType (← matchAclEntry env db clientAddress connectionType false)

def chooses : Option AclEntry → Bool
  | none => false
  | some e => !hasFlag e aNotAllowed && hasFlag e aUseChooser

def useChooser (clientAddress : Bytes) (connectionType : Nat) : Option Bool := do
  some (chooses (← matchAclEntry env db clientAddress connectionType false))

/-- What `forEachChooserHost` does with the entry. -/
def offer (connectionType : Nat) (e : Option AclEntry) : Option (List Call) :=
  match e with
  | none => some []
  | some e =>
    if chooses (some e) then (scanHostlist env db connectionType true false (maxDepth+1) e.hosts e.nhosts).map Scanned.calls
    else some []

def forEachChooserHost (clientAddress : Bytes) (connectionType : Nat) : Option (List Call) := do
  offer env db connectionType (← matchAclEntry env db clientAddress connectionType false)

inductive Query
  | broadcastQuery
  | query
  | indirectQuery
deriving Repr, DecidableEq

def allows (type : Query) : Option AclEntry → Bool
  | none => false
  | some e => !hasFlag e aNotAllowed && (type ≠ .broadcastQuery || !hasFlag e aNotBroadcast)

def acceptableDisplayAddress (clientAddress : Bytes) (connectionType : Nat) (type : Query) : Option Bool :=
  if type = .indirectQuery then some true
  else do some (allows type (← matchAclEntry env db clientAddress connectionType true))

/-- The entry matches the client. -/
def Matches (clientAddress : Bytes) (connectionType : Nat) (e : AclEntry) : Prop :=
  scanEntries env db clientAddress connectionType e = some true

instance (clientAddress : Bytes) (connectionType : Nat) (e : AclEntry) :
    Decidable (Matches env db clientAddress connectionType e) :=
  inferInstanceAs (Decidable (_ = _))

/-- The first matching entry without a host list, and the first one with hosts. -/
def direct (clientAddress : Bytes) (connectionType : Nat) : Option AclEntry :=
  db.acls.find? fun e => e.nhosts.toInt = 0 ∧ Matches env db clientAddress connectionType e
def indirect (clientAddress : Bytes) (connectionType : Nat) : Option AclEntry :=
  db.acls.find? fun e => e.nhosts.toInt ≠ 0 ∧ Matches env db clientAddress connectionType e

/-- Queries of both kinds are decided by the entries for them. -/
structure Right (clientAddress clientPort : Bytes) (connectionType : Nat) (type : Query) : Prop where
  acceptable : acceptableDisplayAddress env db clientAddress connectionType type =
    some (type = .indirectQuery || allows type (direct env db clientAddress connectionType))
  forwarded : ∃ r, forEachMatchingIndirectHost env db clientAddress clientPort connectionType = some r ∧
    forward env db clientAddress clientPort connectionType (indirect env db clientAddress connectionType) = some r
  chooser : useChooser env db clientAddress connectionType = some (chooses (indirect env db clientAddress connectionType))
  offered : ∃ calls, forEachChooserHost env db clientAddress connectionType = some calls ∧
    offer env db connectionType (indirect env db clientAddress connectionType) = some calls

/-- A matching entry with several hosts comes before those without, and gives another answer. -/
def Diverted (clientAddress : Bytes) (connectionType : Nat) (type : Query) : Prop :=
  type ≠ .indirectQuery ∧ ∃ before e after, db.acls = before ++ e :: after ∧ 1 < e.nhosts.toInt ∧
    Matches env db clientAddress connectionType e ∧
      (∀ b ∈ before, Matches env db clientAddress connectionType b → b.nhosts.toInt = 1) ∧
        allows type (some e) ≠ allows type (direct env db clientAddress connectionType)

section
variable {α : Type} {p : α → Option Bool} {l : List α}

theorem anyM_some (results : ∀ a ∈ l, ∃ b, p a = some b) : ∃ b, l.anyM p = some b := by
  induction l with
  | nil => exact ⟨false,rfl⟩
  | cons a rest ih =>
    obtain ⟨b,here⟩ := results a mem_cons_self
    cases b with
    | true => exact ⟨true,by simp [anyM,here]⟩
    | false =>
      obtain ⟨b,later⟩ := ih fun c member => results c (mem_cons_of_mem a member)
      exact ⟨b,by simp [anyM,here,later]⟩

theorem anyM_false (missed : l.anyM p = some false) : ∀ a ∈ l, p a = some false := by
  induction l with
  | nil => exact fun _ member => (not_mem_nil member).elim
  | cons a rest ih =>
    simp only [anyM,bind_eq_bind,bind_eq_some_iff] at missed
    obtain ⟨b,here,later⟩ := missed
    cases b with
    | true => cases later
    | false => exact forall_mem_cons.mpr ⟨here,ih later⟩

theorem mapM_some (results : ∀ a ∈ l, ∃ b, p a = some b) :
    ∃ bs, l.mapM p = some bs ∧ (bs.any id = false → ∀ a ∈ l, p a = some false) := by
  induction l with
  | nil => exact ⟨[],rfl,fun _ _ member => (not_mem_nil member).elim⟩
  | cons a rest ih =>
    obtain ⟨b,here⟩ := results a mem_cons_self
    obtain ⟨bs,later,missed⟩ := ih fun c member => results c (mem_cons_of_mem a member)
    refine ⟨b :: bs,by simp [mapM_cons,here,later],fun none => ?_⟩
    rw [any_cons,or_eq_false_iff] at none
    obtain rfl : b = false := none.1
    exact forall_mem_cons.mpr ⟨here,missed none.2⟩

theorem gather_some {round : α → Option Scanned} (results : ∀ a ∈ l, ∃ r, round a = some r) : ∃ r, gather round l = some r := by
  induction l with
  | nil => exact ⟨nothing,rfl⟩
  | cons a rest ih =>
    obtain ⟨first,here⟩ := results a mem_cons_self
    obtain ⟨others,later⟩ := ih fun c member => results c (mem_cons_of_mem a member)
    exact ⟨first.append others,by simp [gather,here,later]⟩

end

theorem range_inside {hosts : List HostEntry} {fh nh : Short} (inside : Inside fh nh hosts) :
    ∃ list, range hosts fh nh = some list :=
  ⟨_,if_pos inside⟩

section
variable {env} {f : AccessFile} {checkNot : Bool}

theorem checkAliases_some {check : AliasEntry → Option Bool} (results : ∀ a ∈ f.aliases, ∃ b, check a.entry = some b)
    (aliasPattern : Bytes) : ∃ b, checkAliases env f.aliases checkNot check aliasPattern = some b := by
  obtain ⟨found,done⟩ := anyM_some (l := f.aliases) (p := fun a =>
    if matched env (some a.entry.name) aliasPattern then
      if checkNot && a.hasBad then some true else check a.entry
    else some false) (fun a member => by
      obtain ⟨b,here⟩ := results a member
      rw [here]
      split_ifs <;> exact ⟨_,rfl⟩)
  exact ⟨_,by simp only [checkAliases,done]; rfl⟩

theorem checkHostlist_some (env : Env) (checkNot : Bool) (left : Nat) {fh nh : Short} (inside : Inside fh nh f.hosts) :
    ∃ b, checkHostlist env f checkNot left fh nh = some b := by
  obtain ⟨list,cells⟩ := range_inside inside
  induction left generalizing fh nh list with
  | zero =>
    simp only [checkHostlist,cells]
    exact anyM_some fun h _ => by cases h <;> exact ⟨_,rfl⟩
  | succ left ih =>
    simp only [checkHostlist,cells]
    refine anyM_some fun h _ => ?_
    cases h with
    | aliasHost aliasPattern =>
      refine checkAliases_some (fun a member => ?_) aliasPattern
      have inside' := f.aliasesInside a member
      obtain ⟨list',cells'⟩ := range_inside inside'
      exact ih inside' list' cells'
    | _ => exact ⟨_,rfl⟩

theorem checkHostlist_false {left : Nat} {fh nh : Short} (passed : checkHostlist env f checkNot left fh nh = some false) :
    ∃ list, range f.hosts fh nh = some list ∧ ∀ aliasPattern, .aliasHost aliasPattern ∈ list →
      ∃ less, left = less+1 ∧ ∀ a ∈ f.aliases, matched env (some a.entry.name) aliasPattern = true →
        checkHostlist env f checkNot less a.entry.hosts a.entry.nhosts = some false := by
  cases left with
  | zero =>
    simp only [checkHostlist,bind_eq_bind,bind_eq_some_iff] at passed
    obtain ⟨list,cells,passed⟩ := passed
    refine ⟨list,cells,fun aliasPattern member => ?_⟩
    cases anyM_false passed _ member
  | succ left =>
    simp only [checkHostlist,bind_eq_bind,bind_eq_some_iff] at passed
    obtain ⟨list,cells,passed⟩ := passed
    refine ⟨list,cells,fun aliasPattern member => ⟨left,rfl,fun a inside same => ?_⟩⟩
    have alias_passed := anyM_false passed _ member
    simp only [checkAliases,bind_eq_bind,bind_eq_some_iff,some.injEq,or_eq_false_iff] at alias_passed
    obtain ⟨found,done,missed,_⟩ := alias_passed
    subst missed
    have here := anyM_false done a inside
    rw [if_pos same] at here
    split at here
    · cases here
    · exact here

/-- The database that the file becomes. -/
def granted (f : AccessFile) : Database := ⟨f.hosts,f.listens,f.aliases.map ReadAlias.entry,f.acls⟩

theorem scanEntrylist_some {clientAddress : Bytes} {connectionType left levels : Nat} {fh nh : Short}
    (passed : checkHostlist env f checkNot left fh nh = some false) (deep : left < levels) :
    ∃ b, scanEntrylist env (granted f) clientAddress connectionType levels fh nh = some b := by
  induction levels generalizing left fh nh with
  | zero => exact absurd deep (Nat.not_lt_zero left)
  | succ levels ih =>
    obtain ⟨list,cells,nested⟩ := checkHostlist_false passed
    have cells' : range (granted f).hosts fh nh = some list := cells
    simp only [scanEntrylist,cells']
    refine anyM_some fun h member => ?_
    cases h with
    | aliasHost aliasPattern =>
      obtain ⟨less,rfl,aliases⟩ := nested aliasPattern member
      refine anyM_some fun a inside => ?_
      obtain ⟨read,listed,rfl⟩ := mem_map.mp inside
      by_cases same : matched env (some read.entry.name) aliasPattern = true
      · rw [if_pos same]
        exact ih (aliases read listed same) (by omega)
      · rw [if_neg same]
        exact ⟨false,rfl⟩
    | _ => exact ⟨_,rfl⟩

theorem scanHostlist_some {connectionType left levels : Nat} {broadcast notes : Bool} {fh nh : Short}
    (passed : checkHostlist env f checkNot left fh nh = some false) (deep : left < levels) :
    ∃ r, scanHostlist env (granted f) connectionType broadcast notes levels fh nh = some r := by
  induction levels generalizing left fh nh with
  | zero => exact absurd deep (Nat.not_lt_zero left)
  | succ levels ih =>
    obtain ⟨list,cells,nested⟩ := checkHostlist_false passed
    have cells' : range (granted f).hosts fh nh = some list := cells
    simp only [scanHostlist,cells']
    refine gather_some fun h member => ?_
    cases h with
    | aliasHost aliasPattern =>
      obtain ⟨less,rfl,aliases⟩ := nested aliasPattern member
      refine gather_some fun a inside => ?_
      obtain ⟨read,listed,rfl⟩ := mem_map.mp inside
      by_cases same : matched env (some read.entry.name) aliasPattern = true
      · rw [if_pos same]
        exact ih (aliases read listed same) (by omega)
      · rw [if_neg same]
        exact ⟨nothing,rfl⟩
    | _ => exact ⟨_,rfl⟩

end

/-- Every scan of the entries of the database comes to an end inside the arrays. -/
structure Scannable : Prop where
  entries : ∀ e ∈ db.acls, ∀ clientAddress connectionType, ∃ b, scanEntries env db clientAddress connectionType e = some b
  hosts : ∀ e ∈ db.acls, ∀ connectionType broadcast notes,
    ∃ r, scanHostlist env db connectionType broadcast notes (maxDepth+1) e.hosts e.nhosts = some r
  counted : ∀ e ∈ db.acls, 0 ≤ e.nhosts.toInt

section
variable {env} {db}

theorem checkAcl_some (env : Env) {f : AccessFile} {e : AclEntry} (member : e ∈ f.acls) : ∃ b, checkAcl env f e = some b := by
  obtain ⟨entries,hosts⟩ := f.aclsInside e member
  obtain ⟨b,first⟩ := checkHostlist_some env (hasFlag e aNotAllowed) maxDepth entries
  obtain ⟨b',second⟩ := checkHostlist_some env false maxDepth hosts
  cases b with
  | true => exact ⟨true,by simp [checkAcl,first]⟩
  | false => exact ⟨b',by simp [checkAcl,first,second]⟩

theorem granted_scannable {f : AccessFile} (passed : ∀ e ∈ f.acls, checkAcl env f e = some false) : Scannable env (granted f) := by
  have checked (e : AclEntry) (member : e ∈ f.acls) :
      checkHostlist env f (hasFlag e aNotAllowed) maxDepth e.entries e.nentries = some false ∧
        checkHostlist env f false maxDepth e.hosts e.nhosts = some false := by
    have both := passed e member
    simp only [checkAcl,bind_eq_bind,bind_eq_some_iff] at both
    obtain ⟨b,entries,hosts⟩ := both
    cases b with
    | true => cases hosts
    | false => exact ⟨entries,hosts⟩
  exact ⟨fun e member clientAddress connectionType => scanEntrylist_some (checked e member).1 (Nat.lt_succ_self _),
    fun e member connectionType broadcast notes => scanHostlist_some (checked e member).2 (Nat.lt_succ_self _),
    fun e member => (f.aclsInside e member).2.2.1⟩

theorem sent_scannable (env : Env) (f : AccessFile) : ∃ db, sent env f = some db ∧ Scannable env db := by
  obtain ⟨bad,checked,passed⟩ := mapM_some fun e (member : e ∈ f.acls) => checkAcl_some env member
  by_cases failed : (f.error || bad.any id) = true
  · have empty : sent env f = some noEntries := by simp only [sent,checked,bind_eq_bind,bind_some,if_pos failed]
    exact ⟨noEntries,empty,fun _ member => (not_mem_nil member).elim,fun _ member => (not_mem_nil member).elim,
      fun _ member => (not_mem_nil member).elim⟩
  · have full : sent env f = some (granted f) := by
      simp only [sent,checked,bind_eq_bind,bind_some,if_neg failed]
      rfl
    rw [not_eq_true,or_eq_false_iff] at failed
    exact ⟨granted f,full,granted_scannable (passed failed.2)⟩

theorem firstEntry_eq {scan : AclEntry → Option Bool} {flag : Int} {acls : List AclEntry}
    (results : ∀ e ∈ acls, ∃ b, scan e = some b) :
    firstEntry scan flag acls = some (acls.find? fun e => e.nhosts.toInt ≠ flag ∧ scan e = some true) := by
  induction acls with
  | nil => rfl
  | cons e rest ih =>
    have onward := ih fun c member => results c (mem_cons_of_mem e member)
    obtain ⟨b,here⟩ := results e mem_cons_self
    by_cases kind : e.nhosts.toInt = flag
    · rw [firstEntry,if_neg (not_not_intro kind),onward,find?_cons_of_neg (by simp [kind])]
    · cases b with
      | true =>
        rw [firstEntry,if_pos kind,here,find?_cons_of_pos (by simp [kind,here])]
        rfl
      | false =>
        rw [firstEntry,if_pos kind,here,find?_cons_of_neg (by simp [here]),← onward]
        rfl

variable {clientAddress clientPort : Bytes} {connectionType : Nat}

/-- The first matching entry that the test for direct queries lets pass. -/
def considered (env : Env) (db : Database) (clientAddress : Bytes) (connectionType : Nat) : Option AclEntry :=
  db.acls.find? fun e => e.nhosts.toInt ≠ 1 ∧ Matches env db clientAddress connectionType e

theorem matchAclEntry_indirect (scannable : Scannable env db) :
    matchAclEntry env db clientAddress connectionType false = some (indirect env db clientAddress connectionType) :=
  firstEntry_eq fun e member => scannable.entries e member clientAddress connectionType

theorem matchAclEntry_direct (scannable : Scannable env db) :
    matchAclEntry env db clientAddress connectionType true = some (considered env db clientAddress connectionType) :=
  firstEntry_eq fun e member => scannable.entries e member clientAddress connectionType

theorem diverted_iff (scannable : Scannable env db) {type : Query} (asked : type ≠ .indirectQuery) :
    Diverted env db clientAddress connectionType type ↔
      allows type (considered env db clientAddress connectionType) ≠ allows type (direct env db clientAddress connectionType) := by
  constructor
  · rintro ⟨_,before,e,after,split,several,matching,earlier,differs⟩
    have found : considered env db clientAddress connectionType = some e := by
      refine find?_eq_some_iff_append.mpr ⟨by simp [matching]; omega,before,after,split,?_⟩
      intro b member
      have one := earlier b member
      by_cases here : Matches env db clientAddress connectionType b
      · simp [one here]
      · simp [here]
    rwa [found]
  · intro differs
    cases found : considered env db clientAddress connectionType with
    | none =>
      have missed := find?_eq_none.mp found
      have none_direct : direct env db clientAddress connectionType = none := by
        refine find?_eq_none.mpr fun e member here => ?_
        rw [decide_eq_true_eq] at here
        exact missed e member (by simp [here.1,here.2])
      exact absurd (by rw [found,none_direct]) differs
    | some e =>
      obtain ⟨here,before,after,split,earlier⟩ := find?_eq_some_iff_append.mp found
      rw [decide_eq_true_eq] at here
      have member : e ∈ db.acls := by rw [split]; simp
      have one (b : AclEntry) (inside : b ∈ before) (matching : Matches env db clientAddress connectionType b) :
          b.nhosts.toInt = 1 := by
        have passed := earlier b inside
        by_contra other
        simp [matching,other] at passed
      by_cases without : e.nhosts.toInt = 0
      · have same : direct env db clientAddress connectionType = some e := by
          refine find?_eq_some_iff_append.mpr ⟨by simp [without,here.2],before,after,split,?_⟩
          intro b inside
          by_cases matching : Matches env db clientAddress connectionType b
          · simp [one b inside matching]
          · simp [matching]
        exact absurd (by rw [found,same]) differs
      · have counted := scannable.counted e member
        have other := here.1
        exact ⟨asked,before,e,after,split,by omega,here.2,one,found ▸ differs⟩

theorem forward_some (clientPort : Bytes) (scannable : Scannable env db) : ∃ r,
    forward env db clientAddress clientPort connectionType (indirect env db clientAddress connectionType) = some r := by
  cases found : indirect env db clientAddress connectionType with
  | none => exact ⟨nothing,rfl⟩
  | some e =>
    have member : e ∈ db.acls := mem_of_find?_eq_some found
    rw [forward]
    split_ifs
    · exact ⟨nothing,rfl⟩
    · split <;> exact ⟨_,rfl⟩
    · exact scannable.hosts e member connectionType false true

theorem offer_some (scannable : Scannable env db) : ∃ calls,
    offer env db connectionType (indirect env db clientAddress connectionType) = some calls := by
  cases found : indirect env db clientAddress connectionType with
  | none => exact ⟨[],rfl⟩
  | some e =>
    have member : e ∈ db.acls := mem_of_find?_eq_some found
    obtain ⟨r,scanned⟩ := scannable.hosts e member connectionType true false
    simp only [offer,scanned]
    split_ifs
    · exact ⟨r.calls,rfl⟩
    · exact ⟨[],rfl⟩

theorem acceptable_iff (scannable : Scannable env db) {type : Query} :
    acceptableDisplayAddress env db clientAddress connectionType type =
        some (type = .indirectQuery || allows type (direct env db clientAddress connectionType)) ↔
      ¬ Diverted env db clientAddress connectionType type := by
  by_cases asked : type = .indirectQuery
  · subst asked
    exact iff_of_true (by simp [acceptableDisplayAddress]) fun diverted => diverted.1 rfl
  · rw [diverted_iff scannable asked]
    simp [acceptableDisplayAddress,asked,matchAclEntry_direct scannable]

theorem query_right_iff (scannable : Scannable env db) {type : Query} :
    Right env db clientAddress clientPort connectionType type ↔ ¬ Diverted env db clientAddress connectionType type := by
  rw [← acceptable_iff scannable]
  refine ⟨Right.acceptable,fun acceptable => ⟨acceptable,?_,?_,?_⟩⟩
  · obtain ⟨r,forwarded⟩ := forward_some clientPort scannable
    exact ⟨r,by simp [forEachMatchingIndirectHost,matchAclEntry_indirect scannable,forwarded],forwarded⟩
  · simp [useChooser,matchAclEntry_indirect scannable]
  · obtain ⟨calls,offered⟩ := offer_some scannable
    exact ⟨calls,by simp [forEachChooserHost,matchAclEntry_indirect scannable,offered],offered⟩

end

/-- Whatever the file that was read, queries are decided by the entries for them, except those direct and broadcast ones
    that an entry with several hosts answers otherwise before. -/
theorem queries_right_iff (f : AccessFile) : ∃ db, sent env f = some db ∧
    ∀ clientAddress clientPort connectionType type,
      Right env db clientAddress clientPort connectionType type ↔ ¬ Diverted env db clientAddress connectionType type := by
  obtain ⟨db,read,scannable⟩ := sent_scannable env f
  exact ⟨db,read,fun _ _ _ _ => query_right_iff scannable⟩

/-- Every client may have its indirect queries forwarded to two hosts. -/
def twoHosts : AccessFile where
  hosts := [.pattern [42],.address [10,0,0,1] 0,.address [10,0,0,2] 0]
  listens := []
  aliases := []
  acls := [⟨0,1,1,2,0⟩]
  error := false
  aliasesInside := fun _ member => (List.not_mem_nil member).elim
  aclsInside := by
    intro e member
    obtain rfl := List.mem_singleton.mp member
    unfold Inside
    decide

def quiet : Env := ⟨fun _ _ => none,[],fun _ _ _ => none,fun _ _ => false⟩

/-- Direct queries are accepted, though no entry is for them. -/
theorem two_hosts_accepted : ∃ db, sent quiet twoHosts = some db ∧
    acceptableDisplayAddress quiet db [10,0,0,9] 0 .query = some true ∧ direct quiet db [10,0,0,9] 0 = none ∧
      ¬ Right quiet db [10,0,0,9] [] 0 .query := by
  have accepted : acceptableDisplayAddress quiet (granted twoHosts) [10,0,0,9] 0 .query = some true := by decide
  have unlisted : direct quiet (granted twoHosts) [10,0,0,9] 0 = none := by decide
  refine ⟨granted twoHosts,by decide,accepted,unlisted,fun right => ?_⟩
  have refused := right.acceptable
  rw [accepted,unlisted] at refused
  exact absurd refused (by decide)

end KdeWorkspace.AccessControl
