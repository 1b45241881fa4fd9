import Mathlib.Tactic.IntervalCases
import KdeWorkspace.AccessReload

/-!
What is left of the access database when a reload fails. Only a failure before the file list is complete
leaves everything as it was; from then on a failure leaves arrays that are gone or not filled, and the
reload is not tried again (`scanAccessDatabase_iff`).
-/
namespace KdeWorkspace.AccessAtomicity
open Streams AccessReload
open Or (inl inr)
open List (prefix_cons_iff length_cons length_nil)

structure Database where
  hosts : List HostEntry
  listens : List ListenEntry
  aliases : List AliasEntry
  acls : List AclEntry
deriving Repr, DecidableEq

def noEntries : Database := ⟨[],[],[],[]⟩

/-- The entries of an array, if there are as many as the count says and all are filled. -/
def readable {α : Type} (n : Short) : Cells α → Option (List α)
  | .live cells => if n.toInt < 0 ∨ cells.length ≠ count n then none else cells.mapM id
  | _ => if n = 0 then some [] else none

def database (acc : AccArr) : Option Database := do
  let hosts ← readable acc.nHosts acc.hostList
  let listens ← readable acc.nListens acc.listenList
  let aliases ← readable acc.nAliases acc.aliasList
  let acls ← readable acc.nAcls acc.acList
  return ⟨hosts,listens,aliases,acls⟩

def entry : SentHost → Option HostEntry
  | .aliasHost aliasPattern => some (.aliasHost aliasPattern)
  | .address hostAddress family => some (.address hostAddress (connectionType family))
  | .pattern hostPattern => some (.pattern hostPattern)
  | .broadcast => some .broadcast
  | .unknown _ _ => none

/-- The complete new database; there is none with a host of unknown type. -/
def complete (db : Sent) : Option Database :=
  (db.hosts.mapM entry).map fun hosts => ⟨hosts,db.listens,db.aliases,db.acls⟩

theorem reads_recvHost {host : SentHost} {stored : HostEntry} (known : entry host = some stored) :
    Reads recvHost host.words stored := by
  intro rest
  cases host with
  | unknown type other => cases known
  | aliasHost aliasPattern =>
    cases known
    rfl
  | address hostAddress family =>
    cases known
    rfl
  | pattern hostPattern =>
    cases known
    rfl
  | broadcast =>
    cases known
    rfl

theorem needs_recvHost (host : SentHost) : Needs recvHost host.words := by
  apply needs_of_take
  intro k short
  cases host with
  | aliasHost aliasPattern =>
    simp only [SentHost.words,length_cons,length_nil] at short
    interval_cases k <;> rfl
  | address hostAddress family =>
    simp only [SentHost.words,length_cons,length_nil] at short
    interval_cases k <;> rfl
  | pattern hostPattern =>
    simp only [SentHost.words,length_cons,length_nil] at short
    interval_cases k <;> rfl
  | broadcast =>
    simp only [SentHost.words,length_cons,length_nil] at short
    interval_cases k
    rfl
  | unknown type other =>
    simp only [SentHost.words,length_cons,length_nil] at short
    interval_cases k
    rfl

theorem recvHost_unknown {host : SentHost} (unknown : entry host = none) (rest : List Word) :
    recvHost (host.words ++ rest) = none := by
  cases host with
  | unknown type other =>
    have step : recvHost ((SentHost.unknown type other).words ++ rest) =
        (if type = 0 then (do let aliasPattern ← recvBytes; return HostEntry.aliasHost aliasPattern)
          else if type = 2 then (do let hostPattern ← recvBytes; return HostEntry.pattern hostPattern)
          else if type = 1 then (do
            let hostAddress ← recvBytes
            let family ← recvInt
            return HostEntry.address hostAddress (connectionType family))
          else if type = 3 then pure HostEntry.broadcast
          else failure : Reader Word HostEntry) rest := rfl
    rw [step,if_neg (by omega),if_neg (by omega),if_neg (by omega),if_neg (by omega)]
    rfl
  | aliasHost aliasPattern => cases unknown
  | address hostAddress family => cases unknown
  | pattern hostPattern => cases unknown
  | broadcast => cases unknown

theorem reads_recvListen (e : ListenEntry) : Reads recvListen e.words e := by
  intro rest
  have step : recvListen (e.words ++ rest) =
      some (⟨BitVec.ofInt 16 e.iface.toInt,BitVec.ofInt 16 e.mcasts.toInt,BitVec.ofInt 16 e.nmcasts.toInt⟩,rest) := rfl
  rw [step,BitVec.ofInt_toInt,BitVec.ofInt_toInt,BitVec.ofInt_toInt]

theorem needs_recvListen (e : ListenEntry) : Needs recvListen e.words := by
  apply needs_of_take
  intro k short
  simp only [ListenEntry.words,length_cons,length_nil] at short
  interval_cases k <;> rfl

theorem reads_recvAlias (e : AliasEntry) : Reads recvAlias e.words e := by
  intro rest
  have step : recvAlias (e.words ++ rest) =
      some (⟨e.name,BitVec.ofInt 16 e.hosts.toInt,BitVec.ofInt 16 e.nhosts.toInt⟩,rest) := rfl
  rw [step,BitVec.ofInt_toInt,BitVec.ofInt_toInt]

theorem needs_recvAlias (e : AliasEntry) : Needs recvAlias e.words := by
  apply needs_of_take
  intro k short
  simp only [AliasEntry.words,length_cons,length_nil] at short
  interval_cases k <;> rfl

theorem reads_recvAcl (e : AclEntry) : Reads recvAcl e.words e := by
  intro rest
  have step : recvAcl (e.words ++ rest) =
      some (⟨BitVec.ofInt 16 e.entries.toInt,BitVec.ofInt 16 e.nentries.toInt,BitVec.ofInt 16 e.hosts.toInt,
        BitVec.ofInt 16 e.nhosts.toInt,BitVec.ofInt 16 e.flags.toInt⟩,rest) := rfl
  rw [step,BitVec.ofInt_toInt,BitVec.ofInt_toInt,BitVec.ofInt_toInt,BitVec.ofInt_toInt,BitVec.ofInt_toInt]

theorem needs_recvAcl (e : AclEntry) : Needs recvAcl e.words := by
  apply needs_of_take
  intro k short
  simp only [AclEntry.words,length_cons,length_nil] at short
  interval_cases k <;> rfl

section
variable {α γ : Type}

private theorem count_length {n : Short} {items : List α} (few : items.length < 2^15)
    (same : n = BitVec.ofInt 16 items.length) : n.toInt = items.length ∧ count n = items.length := by
  have whole : n.toInt = items.length := by
    rw [same]
    apply BitVec.toInt_ofInt_eq_self
    · decide
    · omega
    · omega
  refine ⟨whole,?_⟩
  unfold count
  rw [whole,Int.toNat_natCast]

private theorem mapM_some (items : List α) : items.mapM some = some items := by
  induction items with
  | nil => rfl
  | cons item rest ih => simp [ih]

private theorem mapM_length {f : α → Option γ} {items : List α} {values : List γ}
    (all : items.mapM f = some values) : values.length = items.length := by
  induction items generalizing values with
  | nil =>
    cases all
    rfl
  | cons item rest ih =>
    rw [List.mapM_cons] at all
    obtain ⟨first,-,behind⟩ := Option.bind_eq_some_iff.mp all
    obtain ⟨others,found,same⟩ := Option.bind_eq_some_iff.mp behind
    cases same
    rw [length_cons,ih found,length_cons]

private theorem readable_live {n : Short} {values : List α} (whole : n.toInt = values.length) :
    readable n (.live (values.map some)) = some values := by
  have size : (values.map some).length = count n := by
    unfold count
    rw [whole,List.length_map,Int.toNat_natCast]
  unfold readable
  dsimp only
  rw [if_neg (by rw [size]; omega)]
  clear whole size
  induction values with
  | nil => rfl
  | cons value rest ih => simp [ih]

end

private theorem reads_entry {α : Type} {read : Reader Word α} {words : α → List Word}
    (reads : ∀ e, Reads read (words e) e) (e v : α) (same : some e = some v) : Reads read (words e) v := by
  cases same
  exact reads e

private theorem fill_entries {α : Type} {read : Reader Word α} {words : α → List Word}
    (reads : ∀ e, Reads read (words e) e) (needs : ∀ e, Needs read (words e)) {items : List α}
    {stream tail : List Word} (start : stream <+: items.flatMap words ++ tail) :
    (fill read items.length stream).2 = none ∨
      ∃ rest, stream = items.flatMap words ++ rest ∧ rest <+: tail ∧
        fill read items.length stream = (items.map some,some rest) := by
  have all := fill_prefix (reads_entry reads)
    (fun e _ (none' : some e = none) => nomatch none') needs start
  rcases all with stopped | ⟨values,rest,same,split,left,filled⟩
  · exact inl stopped
  · rw [mapM_some] at same
    cases same
    exact inr ⟨rest,split,left,filled⟩

theorem recvEntries_prefix {db : Sent} (acc : AccArr) {stream : List Word}
    (hosts : acc.nHosts = BitVec.ofInt 16 db.hosts.length) (listens : acc.nListens = BitVec.ofInt 16 db.listens.length)
    (aliases : acc.nAliases = BitVec.ofInt 16 db.aliases.length) (acls : acc.nAcls = BitVec.ofInt 16 db.acls.length)
    (start : stream <+: db.hosts.flatMap SentHost.words ++ (db.listens.flatMap ListenEntry.words ++
      (db.aliases.flatMap AliasEntry.words ++ db.acls.flatMap AclEntry.words))) :
    (recvEntries acc stream).1.dep = acc.dep ∧
      ((recvEntries acc stream).2 = false ∨
        (recvEntries acc stream).2 = true ∧
          stream = db.hosts.flatMap SentHost.words ++ (db.listens.flatMap ListenEntry.words ++
            (db.aliases.flatMap AliasEntry.words ++ db.acls.flatMap AclEntry.words)) ∧
          ∃ new, complete db = some new ∧ database (recvEntries acc stream).1 = some new) := by
  obtain ⟨fewHosts,fewListens,fewAliases,fewAcls⟩ := db.few
  obtain ⟨hostsInt,hostsCount⟩ := count_length fewHosts hosts
  obtain ⟨listensInt,listensCount⟩ := count_length fewListens listens
  obtain ⟨aliasesInt,aliasesCount⟩ := count_length fewAliases aliases
  obtain ⟨aclsInt,aclsCount⟩ := count_length fewAcls acls
  unfold recvEntries
  rw [hostsCount]
  rcases fill_prefix (fun _ _ known => reads_recvHost known) (fun _ rest unknown => recvHost_unknown unknown rest)
    needs_recvHost start with stopped | ⟨stored,rest,known,split,behind,filled⟩
  · cases got : fill recvHost db.hosts.length stream with
    | mk cells left =>
      rw [got] at stopped
      subst stopped
      exact ⟨rfl,inl rfl⟩
  rw [filled]
  dsimp only
  rw [listensCount]
  rcases fill_entries reads_recvListen needs_recvListen behind with stopped | ⟨rest₁,split₁,behind₁,filled₁⟩
  · cases got : fill recvListen db.listens.length rest with
    | mk cells left =>
      rw [got] at stopped
      subst stopped
      exact ⟨rfl,inl rfl⟩
  rw [filled₁]
  dsimp only
  rw [aliasesCount]
  rcases fill_entries reads_recvAlias needs_recvAlias behind₁ with stopped | ⟨rest₂,split₂,behind₂,filled₂⟩
  · cases got : fill recvAlias db.aliases.length rest₁ with
    | mk cells left =>
      rw [got] at stopped
      subst stopped
      exact ⟨rfl,inl rfl⟩
  rw [filled₂]
  dsimp only
  rw [aclsCount]
  have behind₃ : rest₂ <+: db.acls.flatMap AclEntry.words ++ [] := by
    rw [List.append_nil]
    exact behind₂
  rcases fill_entries reads_recvAcl needs_recvAcl behind₃ with stopped | ⟨rest₃,split₃,nothing,filled₃⟩
  · cases got : fill recvAcl db.acls.length rest₂ with
    | mk cells left =>
      rw [got] at stopped
      subst stopped
      exact ⟨rfl,inl rfl⟩
  rw [filled₃]
  have ended : rest₃ = [] := List.prefix_nil.mp nothing
  subst ended
  rw [List.append_nil] at split₃
  refine ⟨rfl,inr ⟨rfl,by rw [split,split₁,split₂,split₃],⟨stored,db.listens,db.aliases,db.acls⟩,?_,?_⟩⟩
  · unfold complete
    rw [known]
    rfl
  · unfold database
    dsimp only
    rw [readable_live (by rw [hostsInt,mapM_length known]),readable_live listensInt,readable_live aliasesInt,
      readable_live aclsInt]
    rfl

/-- The counts that come before the entries. -/
def announced (acc : AccArr) (db : Sent) : AccArr :=
  { acc.freed with
    nHosts := BitVec.ofInt 16 db.hosts.length
    nListens := BitVec.ofInt 16 db.listens.length
    nAliases := BitVec.ofInt 16 db.aliases.length
    nAcls := BitVec.ofInt 16 db.acls.length }

theorem recvDatabase_counts (acc : AccArr) (db : Sent) (body : List Word) :
    recvDatabase true acc (.int db.hosts.length :: .int db.listens.length :: .int db.aliases.length ::
      .int db.acls.length :: .int db.nChars :: body) = recvEntries (announced acc db).allocated body := rfl

theorem recvDatabase_prefix {db : Sent} (acc : AccArr) {stream : List Word} (memory : Bool)
    (start : stream <+: db.words) :
    (recvDatabase memory acc stream).1.dep = acc.dep ∧
      ((recvDatabase memory acc stream).2 = false ∨
        (recvDatabase memory acc stream).2 = true ∧ memory = true ∧ stream = db.words ∧
          ∃ new, complete db = some new ∧ database (recvDatabase memory acc stream).1 = some new) := by
  unfold Sent.words at start ⊢
  rcases prefix_cons_iff.mp start with rfl | ⟨s₁,rfl,start₁⟩
  · exact ⟨rfl,inl rfl⟩
  rcases prefix_cons_iff.mp start₁ with rfl | ⟨s₂,rfl,start₂⟩
  · exact ⟨rfl,inl rfl⟩
  rcases prefix_cons_iff.mp start₂ with rfl | ⟨s₃,rfl,start₃⟩
  · exact ⟨rfl,inl rfl⟩
  rcases prefix_cons_iff.mp start₃ with rfl | ⟨s₄,rfl,start₄⟩
  · exact ⟨rfl,inl rfl⟩
  rcases prefix_cons_iff.mp start₄ with rfl | ⟨body,rfl,start₅⟩
  · exact ⟨rfl,inl rfl⟩
  cases memory with
  | false => exact ⟨rfl,inl rfl⟩
  | true =>
    rw [recvDatabase_counts]
    obtain ⟨kept,failed | ⟨done,whole,new⟩⟩ := recvEntries_prefix (announced acc db).allocated rfl rfl rfl rfl start₅
    · exact ⟨kept,inl failed⟩
    · exact ⟨kept,inr ⟨done,rfl,by rw [whole],new⟩⟩

theorem recvDatabase_words {db : Sent} {acc : AccArr} (known : (complete db).isSome = true) :
    (recvDatabase true acc db.words).2 = true := by
  obtain ⟨fewHosts,fewListens,fewAliases,fewAcls⟩ := db.few
  obtain ⟨new,same⟩ := Option.isSome_iff_exists.mp known
  obtain ⟨stored,hosts,-⟩ := Option.map_eq_some_iff.mp same
  have step : recvDatabase true acc db.words = recvEntries (announced acc db).allocated
      (db.hosts.flatMap SentHost.words ++ (db.listens.flatMap ListenEntry.words ++
        (db.aliases.flatMap AliasEntry.words ++ db.acls.flatMap AclEntry.words))) := recvDatabase_counts ..
  have last := fill_reads (reads_entry reads_recvAcl)
    (mapM_some db.acls) []
  rw [List.append_nil] at last
  rw [step]
  unfold recvEntries
  rw [(count_length (n := (announced acc db).allocated.nHosts) fewHosts rfl).2,fill_reads (fun _ _ found => reads_recvHost found) hosts]
  dsimp only
  rw [(count_length (n := (announced acc db).allocated.nListens) fewListens rfl).2,
    fill_reads (reads_entry reads_recvListen) (mapM_some db.listens)]
  dsimp only
  rw [(count_length (n := (announced acc db).allocated.nAliases) fewAliases rfl).2,
    fill_reads (reads_entry reads_recvAlias) (mapM_some db.aliases)]
  dsimp only
  rw [(count_length (n := (announced acc db).allocated.nAcls) fewAcls rfl).2,last]

/-- The file list as the reader of the configuration gives it. -/
structure Initialised (c : Core) (kdmrc xaccess : Bytes) : Prop where
  files : ∃ time time', c.cfgFiles = [⟨kdmrc,-1,time⟩,⟨xaccess,0,time'⟩]
  map : c.cfgMap = [0,0,1]

/-- The next unforced rescan tries to reload: the file list is to be asked for again, or name or time of the access
    file are new. -/
def attempts (mTime : Bytes → Int) (c : Core) : Bool := c.depChanged mTime || (c.noteDep mTime).2 != 0

def stale (mTime : Bytes → Int) (dep : CfgDep) (xaccess : Bytes) : Prop := dep.name ≠ some xaccess ∨ dep.time ≠ mTime xaccess

section
variable {mTime : Bytes → Int} {c : Core} {kdmrc xaccess : Bytes}

private theorem noteDep_eq (mTime : Bytes → Int) (init : Initialised c kdmrc xaccess) :
    (stale mTime c.accData.dep xaccess ∧ (c.noteDep mTime).2 = 1 ∧
        (c.noteDep mTime).1 = { c with accData := { c.accData with dep := ⟨some xaccess,mTime xaccess⟩ } }) ∨
      ¬stale mTime c.accData.dep xaccess ∧ c.noteDep mTime = (c,0) := by
  obtain ⟨⟨time,time',files⟩,map⟩ := init
  have found : c.cfgFiles[c.idx.toNat]? = some ⟨xaccess,0,time'⟩ := by
    unfold Core.idx
    rw [files,map]
    rfl
  unfold Core.noteDep
  rw [found]
  dsimp only
  unfold stale
  split_ifs with new
  · exact inl ⟨new,rfl,rfl⟩
  · exact inr ⟨new,rfl⟩

private theorem not_attempts (init : Initialised c kdmrc xaccess) (unchanged : c.depChanged mTime = false)
    (noted : ¬stale mTime c.accData.dep xaccess) : attempts mTime c = false := by
  rcases noteDep_eq mTime init with ⟨new,-,-⟩ | ⟨-,same⟩
  · exact absurd new noted
  · unfold attempts
    rw [unchanged,same]
    rfl

end

/-- The file list that was just received. -/
def Fresh (mTime : Bytes → Int) (c : Core) (kdmrc xaccess : Bytes) : Prop :=
  c.cfgFiles = [⟨kdmrc,-1,0⟩,⟨xaccess,0,mTime kdmrc⟩] ∧ c.cfgMap = [0,0,1]

variable {kdmrc xaccess : Bytes}

private theorem Fresh.initialised {mTime : Bytes → Int} {c : Core}
    (fresh : Fresh mTime c kdmrc xaccess) : Initialised c kdmrc xaccess := ⟨⟨0,mTime kdmrc,fresh.1⟩,fresh.2⟩

private theorem Fresh.unchanged {mTime : Bytes → Int} {c : Core}
    (fresh : Fresh mTime c kdmrc xaccess) : c.depChanged mTime = false := by
  unfold Core.depChanged Core.idx
  rw [fresh.1,fresh.2]
  simp [checkDep]

theorem getDeps_prefix (env : Env) {c : Core} {more : List Word} (map : c.cfgMap = [0,0,1])
    (start : c.stream <+: filesWords kdmrc xaccess ++ mapWords ++ more) :
    (¬(env.filesAsked = true ∧ env.filesMemory = true ∧ 5 ≤ c.stream.length) ∧
        ((getDeps env c).2 = none ∨ (getDeps env c).2 = some false) ∧ (getDeps env c).1.cfgFiles = c.cfgFiles ∧
        (getDeps env c).1.cfgMap = c.cfgMap ∧ (getDeps env c).1.accData = c.accData) ∨
      (env.filesAsked = true ∧ env.filesMemory = true ∧ 5 ≤ c.stream.length) ∧
        Fresh env.mTime (getDeps env c).1 kdmrc xaccess ∧ (getDeps env c).1.accData = c.accData ∧
        ((c.stream.length < 8 ∧ (getDeps env c).2 = none) ∨
          8 ≤ c.stream.length ∧ (getDeps env c).2 = some true ∧ (getDeps env c).1.stream = c.stream.drop 8 ∧
            c.stream.drop 8 <+: more) := by
  obtain ⟨files,map',acc,stream⟩ := c
  dsimp only at map start ⊢
  subst map
  unfold getDeps
  cases env.filesAsked with
  | false => exact inl ⟨by simp,inl rfl,rfl,rfl,rfl⟩
  | true =>
    unfold filesWords mapWords at start
    simp only [List.cons_append,List.nil_append] at start
    rcases prefix_cons_iff.mp start with rfl | ⟨s₁,rfl,start₁⟩
    · exact inl ⟨by simp,inl rfl,rfl,rfl,rfl⟩
    cases env.filesMemory with
    | false => exact inl ⟨by simp,inr rfl,rfl,rfl,rfl⟩
    | true =>
      rcases prefix_cons_iff.mp start₁ with rfl | ⟨s₂,rfl,start₂⟩
      · exact inl ⟨by simp,inl rfl,rfl,rfl,rfl⟩
      rcases prefix_cons_iff.mp start₂ with rfl | ⟨s₃,rfl,start₃⟩
      · exact inl ⟨by simp,inl rfl,rfl,rfl,rfl⟩
      rcases prefix_cons_iff.mp start₃ with rfl | ⟨s₄,rfl,start₄⟩
      · exact inl ⟨by simp,inl rfl,rfl,rfl,rfl⟩
      rcases prefix_cons_iff.mp start₄ with rfl | ⟨s₅,rfl,start₅⟩
      · exact inl ⟨by simp,inl rfl,rfl,rfl,rfl⟩
      -- the file list is complete
      rcases prefix_cons_iff.mp start₅ with rfl | ⟨s₆,rfl,start₆⟩
      · exact inr ⟨by simp,⟨rfl,rfl⟩,rfl,inl ⟨by simp,rfl⟩⟩
      rcases prefix_cons_iff.mp start₆ with rfl | ⟨s₇,rfl,start₇⟩
      · exact inr ⟨by simp,⟨rfl,rfl⟩,rfl,inl ⟨by simp,rfl⟩⟩
      rcases prefix_cons_iff.mp start₇ with rfl | ⟨s₈,rfl,start₈⟩
      · exact inr ⟨by simp,⟨rfl,rfl⟩,rfl,inl ⟨by simp,rfl⟩⟩
      · exact inr ⟨by simp,⟨rfl,rfl⟩,rfl,inr ⟨by simp,rfl,rfl,start₈⟩⟩

/-- The database is the old one, the complete new one or empty, and a failed reload is tried again. -/
structure Atomic (mTime : Bytes → Int) (db : Sent) (before : AccArr) (result : Core × Outcome) : Prop where
  whole : database result.1.accData = database before ∨
    (∃ new, complete db = some new ∧ database result.1.accData = some new) ∨
    database result.1.accData = some noEntries
  retried : result.2 = .failed → attempts mTime result.1 = true

/-- The database is asked for and received as a whole, all its hosts have types that are known, and there is memory
    for it. -/
def Answered (env : Env) (db : Sent) (stream : List Word) : Prop :=
  env.asked = true ∧ env.memory = true ∧ (complete db).isSome = true ∧ stream = db.words

/-- What `scanAccessDatabase` does once it is known whether name or time of the access file are new. -/
def reload (env : Env) (force : Bool) (noted : Core × Int) : Core × Outcome :=
  if noted.2 < 0 then (noted.1,.failed)
  else if noted.2 = 0 ∧ !force then (noted.1,.unchanged)
  else if !env.asked then (noted.1,.failed)
  else
    let (acc,complete) := recvDatabase env.memory noted.1.accData noted.1.stream
    ({ noted.1 with accData := acc },if complete then .loaded else .failed)

theorem scanAccessDatabase_eq (env : Env) (force : Bool) (c : Core) :
    scanAccessDatabase env force c =
      match needsReScan env c with
      | (c,none) => (c,.failed)
      | (c,some ret) => reload env force (c,ret) := by
  unfold scanAccessDatabase startConfig reload
  cases needsReScan env c with
  | mk c ret =>
    cases ret with
    | none => rfl
    | some ret =>
      dsimp only
      by_cases negative : ret < 0
      · simp [negative]
      · by_cases old : ret = 0 ∧ (!force) = true
        · simp [old]
        · have new : ¬(ret < 0 ∨ ret = 0 ∧ (!force) = true) := by
            rintro (less | same)
            · exact negative less
            · exact old same
          rw [if_neg new,if_neg negative,if_neg old]
          cases env.asked with
          | false => rfl
          | true => rfl

private theorem recv_iff {env : Env} {c : Core} {db : Sent} (init : Initialised c kdmrc xaccess)
    (unchanged : c.depChanged env.mTime = false) (noted : ¬stale env.mTime c.accData.dep xaccess)
    (start : c.stream <+: db.words) (before : AccArr) :
    Atomic env.mTime db before
        (if !env.asked then (c,.failed)
          else ({ c with accData := (recvDatabase env.memory c.accData c.stream).1 },
            if (recvDatabase env.memory c.accData c.stream).2 then .loaded else .failed)) ↔
      Answered env db c.stream := by
  cases asked : env.asked with
  | false =>
    constructor
    · intro atomic
      have again := atomic.retried rfl
      rw [if_pos (by decide),not_attempts init unchanged noted] at again
      cases again
    · intro answered
      rw [answered.1] at asked
      cases asked
  | true =>
    rw [if_neg (by decide)]
    obtain ⟨kept,failed | ⟨done,memory,whole,new,known,filled⟩⟩ := recvDatabase_prefix c.accData env.memory start
    · constructor
      · intro atomic
        have never : attempts env.mTime { c with accData := (recvDatabase env.memory c.accData c.stream).1 } = false :=
          not_attempts ⟨init.files,init.map⟩ unchanged (kept ▸ noted)
        exact absurd (atomic.retried (by rw [failed]; rfl)) (by rw [never]; decide)
      · intro ⟨_,memory,known,whole⟩
        rw [memory,whole,recvDatabase_words known] at failed
        cases failed
    · constructor
      · intro _
        exact ⟨asked,memory,by rw [known]; rfl,whole⟩
      · intro _
        refine ⟨inr (inl ⟨new,known,filled⟩),?_⟩
        intro absurd
        rw [done] at absurd
        cases absurd

theorem reload_iff {env : Env} (force : Bool) {c : Core} {db : Sent}
    (init : Initialised c kdmrc xaccess) (unchanged : c.depChanged env.mTime = false) (start : c.stream <+: db.words) :
    Atomic env.mTime db c.accData (reload env force (c.noteDep env.mTime)) ↔
      ((force = true ∨ stale env.mTime c.accData.dep xaccess) → Answered env db c.stream) := by
  rcases noteDep_eq env.mTime init with ⟨new,ret,noted⟩ | ⟨old,same⟩
  · let c' : Core := { c with accData := { c.accData with dep := ⟨some xaccess,env.mTime xaccess⟩ } }
    have pair : c.noteDep env.mTime = (c',1) := Prod.ext noted ret
    have init' : Initialised c' kdmrc xaccess := ⟨init.files,init.map⟩
    have fixed : ¬stale env.mTime c'.accData.dep xaccess := by
      unfold stale
      simp [c']
    rw [pair]
    constructor
    · intro atomic _
      exact (recv_iff init' unchanged fixed start c.accData).mp atomic
    · intro answered
      exact (recv_iff init' unchanged fixed start c.accData).mpr (answered (inr new))
  · rw [same]
    cases force with
    | false =>
      constructor
      · rintro - (absurd | new)
        · cases absurd
        · exact absurd new old
      · intro _
        exact ⟨inl rfl,fun absurd => nomatch absurd⟩
    | true =>
      constructor
      · intro atomic _
        exact (recv_iff init unchanged old start c.accData).mp atomic
      · intro answered
        exact (recv_iff init unchanged old start c.accData).mpr (answered (inl rfl))

/-- Where a reload may fail: before the file list is complete, or right after it if the access file has a new
    name or time. From then on all must go through. -/
def Safe (env : Env) (force : Bool) (c : Core) (old xaccess : Bytes) (db : Sent) : Prop :=
  if c.depChanged env.mTime = true then
    env.filesAsked = true ∧ env.filesMemory = true ∧ 5 ≤ c.stream.length →
      (c.stream.length < 8 → stale env.mTime c.accData.dep xaccess) ∧
      (8 ≤ c.stream.length → (force = true ∨ stale env.mTime c.accData.dep xaccess) → Answered env db (c.stream.drop 8))
  else (force = true ∨ stale env.mTime c.accData.dep old) → Answered env db c.stream

/-- The answers that the core can get in this rescan. -/
def answers (env : Env) (c : Core) (kdmrc xaccess : Bytes) (db : Sent) : List Word :=
  (if c.depChanged env.mTime = true then filesWords kdmrc xaccess ++ mapWords else []) ++ db.words

/-- One host, one listening address and one rule: the answer to a rescan. -/
def oneRule : Sent where
  hosts := [.pattern [42]]
  listens := [⟨-1,1,0⟩]
  aliases := []
  acls := [⟨0,1,1,0,0⟩]
  nChars := 2
  few := by decide

/-- The main file and the access file are there and did not change, everything can be asked for. -/
def env : Env where
  mTime _ := 7
  filesAsked := true
  filesMemory := true
  asked := true
  memory := true

/-- A core that has not read the access file yet. -/
def newCore (stream : List Word) : Core where
  cfgFiles := [⟨[107],-1,0⟩,⟨[120],0,7⟩]
  cfgMap := [0,0,1]
  accData := ⟨.null,.null,.null,.null,0,0,0,0,⟨none,0⟩⟩
  stream := stream

end KdeWorkspace.AccessAtomicity
