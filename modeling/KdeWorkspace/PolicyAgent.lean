import Mathlib.Algebra.Group.Nat.Defs
import Mathlib.Data.List.Nodup
import Mathlib.Data.List.Perm.Basic

/-!
The inhibitions of PowerDevil: who has asked for which policies to be left alone, under which cookie and for
which service of the bus.

`inhibitions_kept` compares the tables of the `PolicyAgent` with a `Ledger` of the requests which have not been
released. The cookies are numbers of 32 bits, and `wrapped_unwatched` is what becomes of a service whose cookie
is 0.
-/
namespace KdeWorkspace.PolicyAgent
open List
open Function (update)

inductive RequiredPolicy
  | InterruptSession
  | ChangeProfile
  | ChangeScreenSettings
deriving DecidableEq, Repr

def RequiredPolicy.flag : RequiredPolicy → UInt32
  | .InterruptSession => 1
  | .ChangeProfile => 2
  | .ChangeScreenSettings => 4

open RequiredPolicy

/-- The order in which a hash table holds its entries. -/
structure Hashing where
  order : {α : Type} → List (UInt32 × α) → List (UInt32 × α)
  perm : ∀ {α : Type} (entries : List (UInt32 × α)), (order entries).Perm entries

def remove {α : Type} (table : List (UInt32 × α)) (key : UInt32) : List (UInt32 × α) := table.filter (·.1 ≠ key)

def Hashing.insert (hash : Hashing) {α : Type} (table : List (UInt32 × α)) (key : UInt32) (value : α) :
    List (UInt32 × α) :=
  hash.order ((key,value) :: remove table key)

/-- `QHash::key`: the first key with a value, or else 0. -/
def keyOf (table : List (UInt32 × String)) (value : String) : UInt32 := ((table.find? (·.2 = value)).map (·.1)).getD 0

def keysOf (table : List (UInt32 × String)) (value : String) : List UInt32 := (table.filter (·.2 = value)).map (·.1)

/-- `watchedServices` are those of `m_busWatcher`, and `emitted` is what `unavailablePoliciesChanged` has told. -/
@[ext]
structure Agent where
  m_cookieToAppName : List (UInt32 × (String × String))
  m_cookieToBusService : List (UInt32 × String)
  m_typesToCookie : RequiredPolicy → List UInt32
  m_lastCookie : UInt32
  watchedServices : List String
  emitted : List UInt32

def Agent.initial : Agent := ⟨[],[],fun _ => [],0,[],[]⟩

namespace Agent

def addWatchedService (agent : Agent) (service : String) : Agent :=
  if service ∈ agent.watchedServices then agent
  else { agent with watchedServices := agent.watchedServices++[service] }

def removeWatchedService (agent : Agent) (service : String) : Agent :=
  { agent with watchedServices := agent.watchedServices.filter (· ≠ service) }

def unavailablePolicies (agent : Agent) : UInt32 :=
  let retpolicies : UInt32 := 0
  let retpolicies :=
    if (agent.m_typesToCookie ChangeProfile).isEmpty then retpolicies else retpolicies ||| ChangeProfile.flag
  let retpolicies :=
    if (agent.m_typesToCookie ChangeScreenSettings).isEmpty then retpolicies
    else retpolicies ||| ChangeScreenSettings.flag
  if (agent.m_typesToCookie InterruptSession).isEmpty then retpolicies else retpolicies ||| InterruptSession.flag

def notified (agent : Agent) (notify : Bool) : Agent :=
  if notify then { agent with emitted := agent.emitted++[agent.unavailablePolicies] } else agent

/-- What `addInhibitionTypeHelper` does for one type. -/
def appendType (agent : Agent) (notify : Bool) (policy : RequiredPolicy) (cookie : UInt32) : Agent × Bool :=
  ({ agent with m_typesToCookie :=
      Function.update agent.m_typesToCookie policy (agent.m_typesToCookie policy++[cookie]) },
    notify || (agent.m_typesToCookie policy).isEmpty)

def addInhibitionTypeHelper (agent : Agent) (cookie types : UInt32) : Agent :=
  let (agent,notify) :=
    if types &&& ChangeProfile.flag ≠ 0 then agent.appendType false ChangeProfile cookie else (agent,false)
  let (agent,notify,types) :=
    if types &&& ChangeScreenSettings.flag ≠ 0 then
      let (agent,notify) := agent.appendType notify ChangeScreenSettings cookie
      (agent,notify,types ||| InterruptSession.flag)
    else (agent,notify,types)
  let (agent,notify) :=
    if types &&& InterruptSession.flag ≠ 0 then agent.appendType notify InterruptSession cookie else (agent,notify)
  agent.notified notify

def addInhibitionWithExplicitDBusService (hash : Hashing) (agent : Agent) (types : UInt32)
    (appName reason service : String) : Agent × UInt32 :=
  let cookie := agent.m_lastCookie+1
  let agent := { agent with
    m_lastCookie := cookie, m_cookieToAppName := hash.insert agent.m_cookieToAppName cookie (appName,reason) }
  let agent :=
    if service ≠ "" then
      { agent with m_cookieToBusService := hash.insert agent.m_cookieToBusService cookie service }.addWatchedService
        service
    else agent
  (agent.addInhibitionTypeHelper cookie types,cookie)

/-- `caller` is the service of the message, when it has been called from the bus. -/
def AddInhibition (hash : Hashing) (agent : Agent) (types : UInt32) (appName reason : String) (caller : Option String) :
    Agent × UInt32 :=
  let cookie := agent.m_lastCookie+1
  let agent := { agent with
    m_lastCookie := cookie, m_cookieToAppName := hash.insert agent.m_cookieToAppName cookie (appName,reason) }
  let agent :=
    match caller with
    | none => agent
    | some service =>
      if service ≠ "" then
        { agent with m_cookieToBusService := hash.insert agent.m_cookieToBusService cookie service }.addWatchedService
          service
      else agent
  (agent.addInhibitionTypeHelper cookie types,cookie)

/-- What `ReleaseInhibition` does for one type. -/
def releaseType (agent : Agent) (notify : Bool) (policy : RequiredPolicy) (cookie : UInt32) : Agent × Bool :=
  if cookie ∈ agent.m_typesToCookie policy then
    ({ agent with m_typesToCookie :=
        Function.update agent.m_typesToCookie policy ((agent.m_typesToCookie policy).erase cookie) },
      notify || ((agent.m_typesToCookie policy).erase cookie).isEmpty)
  else (agent,notify)

def ReleaseInhibition (agent : Agent) (cookie : UInt32) : Agent :=
  let service := (agent.m_cookieToBusService.lookup cookie).getD ""
  let agent := { agent with
    m_cookieToAppName := remove agent.m_cookieToAppName cookie
    m_cookieToBusService := remove agent.m_cookieToBusService cookie }
  let agent :=
    if service ≠ "" ∧ keyOf agent.m_cookieToBusService service = 0 then agent.removeWatchedService service else agent
  let (agent,notify) := agent.releaseType false ChangeProfile cookie
  let (agent,notify) := agent.releaseType notify ChangeScreenSettings cookie
  let (agent,notify) := agent.releaseType notify InterruptSession cookie
  agent.notified notify

def releaseAllInhibitions (agent : Agent) : Agent := (agent.m_cookieToAppName.map (·.1)).foldl ReleaseInhibition agent

def onServiceUnregistered (agent : Agent) (serviceName : String) : Agent :=
  if serviceName ∈ agent.m_cookieToBusService.map (·.2) then
    (keysOf agent.m_cookieToBusService serviceName).foldl ReleaseInhibition agent
  else agent

end Agent

inductive Call
  | AddInhibition (types : UInt32) (appName reason : String) (caller : Option String)
  | addInhibitionWithExplicitDBusService (types : UInt32) (appName reason service : String)
  | ReleaseInhibition (cookie : UInt32)
  | releaseAllInhibitions
  | onServiceUnregistered (serviceName : String)

def Agent.call (hash : Hashing) (agent : Agent) : Call → Agent
  | .AddInhibition types appName reason caller => (agent.AddInhibition hash types appName reason caller).1
  | .addInhibitionWithExplicitDBusService types appName reason service =>
    (agent.addInhibitionWithExplicitDBusService hash types appName reason service).1
  | .ReleaseInhibition cookie => agent.ReleaseInhibition cookie
  | .releaseAllInhibitions => agent.releaseAllInhibitions
  | .onServiceUnregistered serviceName => agent.onServiceUnregistered serviceName

structure Request where
  types : UInt32
  service : Option String

/-- To leave the settings of the screen alone implies not to interrupt the session. -/
def Request.asks (request : Request) (policy : RequiredPolicy) : Bool :=
  request.types &&& policy.flag ≠ 0 || policy = InterruptSession && request.types &&& ChangeScreenSettings.flag ≠ 0

/-- The set of policies as the flags of its members. -/
def flags (policies : RequiredPolicy → Bool) : UInt32 :=
  (if policies ChangeProfile then ChangeProfile.flag else 0) |||
    (if policies ChangeScreenSettings then ChangeScreenSettings.flag else 0) |||
    (if policies InterruptSession then InterruptSession.flag else 0)

/-- The requests which have not been released, under their cookies, and what has been announced. -/
structure Ledger where
  live : List (UInt32 × Request)
  announced : List UInt32

def Ledger.empty : Ledger := ⟨[],[]⟩

def inhibited (live : List (UInt32 × Request)) (policy : RequiredPolicy) : Bool := live.any (·.2.asks policy)

def Ledger.policies (ledger : Ledger) : UInt32 := flags (inhibited ledger.live)

/-- Whenever a policy becomes inhibited or free, and only then, the policies are announced. -/
def Ledger.change (ledger : Ledger) (live : List (UInt32 × Request)) : Ledger :=
  ⟨live,ledger.announced++if flags (inhibited live) = ledger.policies then [] else [flags (inhibited live)]⟩

def Ledger.add (ledger : Ledger) (cookie : UInt32) (request : Request) : Ledger :=
  ledger.change ((cookie,request) :: ledger.live)

def Ledger.release (ledger : Ledger) (cookie : UInt32) : Ledger := ledger.change (remove ledger.live cookie)

def nonempty (service : String) : Option String := if service = "" then none else some service

/-- What a call means, which has handed out a cookie. Several cookies are released in any order. -/
inductive Ledger.Step (returned : UInt32) : Ledger → Call → Ledger → Prop
  | add {ledger types appName reason caller} : Step returned ledger (.AddInhibition types appName reason caller)
      (ledger.add returned ⟨types,caller.bind nonempty⟩)
  | addExplicit {ledger types appName reason service} :
      Step returned ledger (.addInhibitionWithExplicitDBusService types appName reason service)
        (ledger.add returned ⟨types,nonempty service⟩)
  | release {ledger cookie} : Step returned ledger (.ReleaseInhibition cookie) (ledger.release cookie)
  | all {ledger} (cookies : List UInt32) (perm : cookies.Perm (ledger.live.map (·.1))) :
      Step returned ledger .releaseAllInhibitions (cookies.foldl Ledger.release ledger)
  | gone {ledger serviceName} (cookies : List UInt32)
      (perm : cookies.Perm ((ledger.live.filter (·.2.service = some serviceName)).map (·.1))) :
      Step returned ledger (.onServiceUnregistered serviceName) (cookies.foldl Ledger.release ledger)

/-- A ledger follows the calls, with the cookies which the agent hands out. -/
inductive Follows (hash : Hashing) : Agent → Ledger → List Call → Ledger → Prop
  | done {agent ledger} : Follows hash agent ledger [] ledger
  | call {agent ledger ledger' ledger'' call calls}
      (step : Ledger.Step (agent.call hash call).m_lastCookie ledger call ledger')
      (rest : Follows hash (agent.call hash call) ledger' calls ledger'') :
      Follows hash agent ledger (call :: calls) ledger''

/-- What is told to the others about the requests which have not been released. -/
structure Told (agent : Agent) (ledger : Ledger) : Prop where
  policies : agent.unavailablePolicies = ledger.policies
  watched : ∀ service, service ∈ agent.watchedServices ↔ ∃ entry ∈ ledger.live, entry.2.service = some service
  emitted : agent.emitted = ledger.announced

def Call.Adds : Call → Prop
  | .AddInhibition .. => True
  | .addInhibitionWithExplicitDBusService .. => True
  | _ => False

/-- The next cookie is not 0 and nobody has it. -/
def Agent.Fresh (agent : Agent) : Prop :=
  agent.m_lastCookie+1 ≠ 0 ∧ agent.m_lastCookie+1 ∉ agent.m_cookieToAppName.map (·.1)

def AllFresh (hash : Hashing) : Agent → List Call → Prop
  | _, [] => True
  | agent, call :: calls => (call.Adds → agent.Fresh) ∧ AllFresh hash (agent.call hash call) calls

theorem flags_injective {f g : RequiredPolicy → Bool} (same : flags f = flags g) : f = g := by
  have all : ∀ a b c a' b' c' : Bool,
      ((if a then ChangeProfile.flag else 0) ||| (if b then ChangeScreenSettings.flag else 0) |||
        (if c then InterruptSession.flag else 0)) =
      ((if a' then ChangeProfile.flag else 0) ||| (if b' then ChangeScreenSettings.flag else 0) |||
        (if c' then InterruptSession.flag else 0)) → a = a' ∧ b = b' ∧ c = c' := by decide
  obtain ⟨one,two,three⟩ := all _ _ _ _ _ _ same
  funext policy
  cases policy
  · exact three
  · exact one
  · exact two

theorem unavailable_flags (agent : Agent) :
    agent.unavailablePolicies = flags fun policy => !(agent.m_typesToCookie policy).isEmpty := by
  cases profile : (agent.m_typesToCookie ChangeProfile).isEmpty <;>
    cases screen : (agent.m_typesToCookie ChangeScreenSettings).isEmpty <;>
    cases session : (agent.m_typesToCookie InterruptSession).isEmpty <;>
    simp [Agent.unavailablePolicies,flags,profile,screen,session]

theorem or_and_one (types : UInt32) : (types ||| 1) &&& 1 = 1 := by
  apply UInt32.toNat_inj.mp
  simp [Nat.and_one_is_mod]

theorem appendType_if (agent : Agent) (notify : Bool) (policy : RequiredPolicy) (cookie : UInt32) (asked : Prop)
    [Decidable asked] :
    (if asked then agent.appendType notify policy cookie else (agent,notify)) =
      ({ agent with
          m_typesToCookie := update agent.m_typesToCookie policy
            (if asked then agent.m_typesToCookie policy++[cookie] else agent.m_typesToCookie policy) },
        notify || (decide asked && (agent.m_typesToCookie policy).isEmpty)) := by
  by_cases yes : asked
  · simp [Agent.appendType,yes]
  · simp [yes,Function.update_eq_self]

theorem addInhibitionTypeHelper_eq (agent : Agent) (cookie types : UInt32) (service : Option String) :
    agent.addInhibitionTypeHelper cookie types =
      { agent with m_typesToCookie := fun policy =>
          if Request.asks ⟨types,service⟩ policy then agent.m_typesToCookie policy++[cookie]
          else agent.m_typesToCookie policy }.notified
        ([ChangeProfile,ChangeScreenSettings,InterruptSession].any fun policy =>
          Request.asks ⟨types,service⟩ policy && (agent.m_typesToCookie policy).isEmpty) := by
  have one := or_and_one types
  rw [Agent.addInhibitionTypeHelper,appendType_if]
  by_cases screen : types &&& ChangeScreenSettings.flag = 0
  · simp only [ne_eq,screen,not_true_eq_false,if_false]
    rw [appendType_if]
    refine congrArg₂ Agent.notified (Agent.ext rfl rfl ?_ rfl rfl rfl) ?_
    · funext policy
      cases policy <;> simp [Request.asks,screen,update]
    · simp [Request.asks,screen,update]
  · simp only [ne_eq,screen,not_false_eq_true,if_true,Agent.appendType]
    rw [show ((types ||| InterruptSession.flag) &&& InterruptSession.flag) = 1 from one, if_pos (by decide)]
    refine congrArg₂ Agent.notified (Agent.ext rfl rfl ?_ rfl rfl rfl) ?_
    · funext policy
      cases policy <;> simp [Request.asks,screen,update]
    · simp [Request.asks,screen,update,Bool.or_assoc]

theorem releaseType_eq (agent : Agent) (notify : Bool) (policy : RequiredPolicy) (cookie : UInt32) :
    agent.releaseType notify policy cookie =
      ({ agent with
          m_typesToCookie := update agent.m_typesToCookie policy
            ((agent.m_typesToCookie policy).erase cookie) },
        notify || (decide (cookie ∈ agent.m_typesToCookie policy) &&
          ((agent.m_typesToCookie policy).erase cookie).isEmpty)) := by
  by_cases inside : cookie ∈ agent.m_typesToCookie policy
  · simp [Agent.releaseType,inside]
  · simp [Agent.releaseType,inside,erase_of_not_mem,Function.update_eq_self]

theorem releaseTypes_eq (agent : Agent) (cookie : UInt32) :
    (let (agent,notify) := agent.releaseType false ChangeProfile cookie
     let (agent,notify) := agent.releaseType notify ChangeScreenSettings cookie
     let (agent,notify) := agent.releaseType notify InterruptSession cookie
     agent.notified notify) =
      { agent with m_typesToCookie := fun policy => (agent.m_typesToCookie policy).erase cookie }.notified
        ([ChangeProfile,ChangeScreenSettings,InterruptSession].any fun policy =>
          decide (cookie ∈ agent.m_typesToCookie policy) &&
            ((agent.m_typesToCookie policy).erase cookie).isEmpty) := by
  rw [releaseType_eq]
  dsimp only
  rw [releaseType_eq]
  dsimp only
  rw [releaseType_eq]
  refine congrArg₂ Agent.notified (Agent.ext rfl rfl ?_ rfl rfl rfl) ?_
  · funext policy
    cases policy <;> simp [update]
  · simp [update,Bool.or_assoc]

@[simp] theorem notified_apps (agent : Agent) (notify : Bool) :
    (agent.notified notify).m_cookieToAppName = agent.m_cookieToAppName := by
  cases notify <;> rfl

@[simp] theorem notified_bus (agent : Agent) (notify : Bool) :
    (agent.notified notify).m_cookieToBusService = agent.m_cookieToBusService := by
  cases notify <;> rfl

@[simp] theorem notified_types (agent : Agent) (notify : Bool) :
    (agent.notified notify).m_typesToCookie = agent.m_typesToCookie := by
  cases notify <;> rfl

@[simp] theorem notified_lastCookie (agent : Agent) (notify : Bool) :
    (agent.notified notify).m_lastCookie = agent.m_lastCookie := by
  cases notify <;> rfl

@[simp] theorem notified_watched (agent : Agent) (notify : Bool) :
    (agent.notified notify).watchedServices = agent.watchedServices := by
  cases notify <;> rfl

theorem notified_emitted (agent : Agent) (notify : Bool) :
    (agent.notified notify).emitted = agent.emitted++if notify then [agent.unavailablePolicies] else [] := by
  cases notify <;> simp [Agent.notified]

theorem mem_remove {α : Type} {table : List (UInt32 × α)} {key : UInt32} {entry : UInt32 × α} :
    entry ∈ remove table key ↔ entry ∈ table ∧ entry.1 ≠ key := by
  simp [remove]

theorem remove_nodup {α : Type} {table : List (UInt32 × α)} (nodup : (table.map (·.1)).Nodup) (key : UInt32) :
    ((remove table key).map (·.1)).Nodup :=
  nodup.sublist (filter_sublist.map _)

variable {hash : Hashing}

theorem mem_insert {α : Type} {table : List (UInt32 × α)} {key : UInt32} {value : α} {entry : UInt32 × α} :
    entry ∈ hash.insert table key value ↔ entry = (key,value) ∨ entry ∈ remove table key := by
  rw [Hashing.insert,(hash.perm _).mem_iff,mem_cons]

theorem insert_nodup (hash : Hashing) {α : Type} {table : List (UInt32 × α)} (nodup : (table.map (·.1)).Nodup)
    (key : UInt32) (value : α) : ((hash.insert table key value).map (·.1)).Nodup := by
  rw [Hashing.insert,((hash.perm _).map _).nodup_iff,map_cons,nodup_cons]
  refine ⟨?_,remove_nodup nodup key⟩
  intro at_
  obtain ⟨entry,inside,same⟩ := mem_map.mp at_
  exact (mem_remove.mp inside).2 same

theorem remove_absent {α : Type} {table : List (UInt32 × α)} {key : UInt32} (absent : key ∉ table.map (·.1)) :
    remove table key = table := by
  rw [remove,filter_eq_self]
  intro entry at_
  have : entry.1 ≠ key := fun same => absent (mem_map.mpr ⟨entry,at_,same⟩)
  simpa using this

theorem lookup_eq_some {table : List (UInt32 × String)} (nodup : (table.map (·.1)).Nodup) {key : UInt32}
    {value : String} : table.lookup key = some value ↔ (key,value) ∈ table := by
  induction table with
  | nil => simp
  | cons entry table ih =>
    obtain ⟨k,v⟩ := entry
    simp only [map_cons,nodup_cons] at nodup
    by_cases same : key = k
    · subst same
      have absent : (key,value) ∉ table := fun at_ => nodup.1 (mem_map.mpr ⟨_,at_,rfl⟩)
      simp [absent,eq_comm]
    · have differ : (key == k) = false := by simpa using same
      simp [lookup_cons,differ,ih nodup.2,same]

theorem keyOf_eq_zero {table : List (UInt32 × String)} {value : String} (cookies : ∀ entry ∈ table, entry.1 ≠ 0) :
    keyOf table value = 0 ↔ ∀ entry ∈ table, entry.2 ≠ value := by
  rw [keyOf]
  cases found : table.find? (·.2 = value) with
  | none => simpa using found
  | some entry =>
    have at_ := mem_of_find?_eq_some found
    have same : entry.2 = value := by simpa using find?_some found
    simp only [Option.map_some,Option.getD_some]
    exact ⟨fun zero => absurd zero (cookies entry at_),fun none_ => absurd same (none_ entry at_)⟩

structure Agrees (agent : Agent) (ledger : Ledger) : Prop where
  apps : ∀ cookie, cookie ∈ agent.m_cookieToAppName.map (·.1) ↔ cookie ∈ ledger.live.map (·.1)
  appsNodup : (agent.m_cookieToAppName.map (·.1)).Nodup
  liveNodup : (ledger.live.map (·.1)).Nodup
  bus : ∀ cookie service, (cookie,service) ∈ agent.m_cookieToBusService ↔
    ∃ request, (cookie,request) ∈ ledger.live ∧ request.service = some service
  busNodup : (agent.m_cookieToBusService.map (·.1)).Nodup
  types : ∀ policy cookie, cookie ∈ agent.m_typesToCookie policy ↔
    ∃ request, (cookie,request) ∈ ledger.live ∧ request.asks policy = true
  typesNodup : ∀ policy, (agent.m_typesToCookie policy).Nodup
  cookies : ∀ entry ∈ ledger.live, entry.1 ≠ 0
  services : ∀ entry ∈ ledger.live, entry.2.service ≠ some ""
  watched : ∀ service, service ∈ agent.watchedServices ↔ ∃ entry ∈ ledger.live, entry.2.service = some service
  emitted : agent.emitted = ledger.announced

theorem inhibited_iff {live : List (UInt32 × Request)} {policy : RequiredPolicy} :
    inhibited live policy = true ↔ ∃ entry ∈ live, entry.2.asks policy = true := by
  simp [inhibited]

theorem nonempty_types {cookies : List UInt32} {live : List (UInt32 × Request)} {policy : RequiredPolicy}
    (types : ∀ cookie, cookie ∈ cookies ↔ ∃ request, (cookie,request) ∈ live ∧ request.asks policy = true) :
    (!cookies.isEmpty) = inhibited live policy := by
  rw [Bool.eq_iff_iff,inhibited_iff]
  constructor
  · intro full
    cases cookies with
    | nil => simp at full
    | cons cookie cookies =>
      obtain ⟨request,at_,asks⟩ := (types cookie).mp (by simp)
      exact ⟨_,at_,asks⟩
  · rintro ⟨⟨cookie,request⟩,at_,asks⟩
    have := (types cookie).mpr ⟨request,at_,asks⟩
    cases cookies <;> simp_all

variable {agent : Agent} {ledger : Ledger}

theorem Agrees.policies (agrees : Agrees agent ledger) : agent.unavailablePolicies = ledger.policies := by
  rw [unavailable_flags,Ledger.policies]
  congr 1
  funext policy
  exact nonempty_types (agrees.types policy)

theorem Agrees.told (agrees : Agrees agent ledger) : Told agent ledger :=
  ⟨agrees.policies,agrees.watched,agrees.emitted⟩

theorem notified_change {live : List (UInt32 × Request)} {notify : Bool}
    (types : ∀ policy cookie, cookie ∈ agent.m_typesToCookie policy ↔
      ∃ request, (cookie,request) ∈ live ∧ request.asks policy = true) (emitted : agent.emitted = ledger.announced)
    (notifies : notify = true ↔ ∃ policy, inhibited live policy ≠ inhibited ledger.live policy) :
    (agent.notified notify).emitted = (ledger.change live).announced := by
  have now : agent.unavailablePolicies = flags (inhibited live) := by
    rw [unavailable_flags]
    congr 1
    funext policy
    exact nonempty_types (types policy)
  rw [notified_emitted,emitted,Ledger.change,now]
  by_cases same : flags (inhibited live) = ledger.policies
  · have quiet : notify = false := by
      rw [Bool.eq_false_iff]
      intro yes
      obtain ⟨policy,differ⟩ := notifies.mp yes
      exact differ (congrFun (flags_injective same) policy)
    simp [same,quiet]
  · have tells : notify = true := by
      rw [notifies]
      by_contra none_
      push Not at none_
      exact same (congrArg flags (funext none_))
    simp [same,tells]

theorem any_policies (f : RequiredPolicy → Bool) :
    [ChangeProfile,ChangeScreenSettings,InterruptSession].any f = true ↔ ∃ policy, f policy = true := by
  constructor
  · intro some_
    obtain ⟨policy,_,yes⟩ := any_eq_true.mp some_
    exact ⟨policy,yes⟩
  · rintro ⟨policy,yes⟩
    exact any_eq_true.mpr ⟨policy,by cases policy <;> simp,yes⟩

@[simp] theorem addWatchedService_types (agent : Agent) (service : String) :
    (agent.addWatchedService service).m_typesToCookie = agent.m_typesToCookie := by
  unfold Agent.addWatchedService
  split <;> rfl

@[simp] theorem addWatchedService_apps (agent : Agent) (service : String) :
    (agent.addWatchedService service).m_cookieToAppName = agent.m_cookieToAppName := by
  unfold Agent.addWatchedService
  split <;> rfl

@[simp] theorem addWatchedService_bus (agent : Agent) (service : String) :
    (agent.addWatchedService service).m_cookieToBusService = agent.m_cookieToBusService := by
  unfold Agent.addWatchedService
  split <;> rfl

@[simp] theorem addWatchedService_emitted (agent : Agent) (service : String) :
    (agent.addWatchedService service).emitted = agent.emitted := by
  unfold Agent.addWatchedService
  split <;> rfl

@[simp] theorem addWatchedService_lastCookie (agent : Agent) (service : String) :
    (agent.addWatchedService service).m_lastCookie = agent.m_lastCookie := by
  unfold Agent.addWatchedService
  split <;> rfl

theorem mem_addWatchedService {service watched : String} :
    watched ∈ (agent.addWatchedService service).watchedServices ↔ watched = service ∨ watched ∈ agent.watchedServices := by
  unfold Agent.addWatchedService
  split
  · rename_i inside
    exact ⟨.inr,fun either => either.elim (fun same => same ▸ inside) id⟩
  · simp [or_comm]

/-- The tables before the types are entered. -/
def Agent.entered (hash : Hashing) (agent : Agent) (appName reason service : String) : Agent :=
  let agent := { agent with
    m_lastCookie := agent.m_lastCookie+1
    m_cookieToAppName := hash.insert agent.m_cookieToAppName (agent.m_lastCookie+1) (appName,reason) }
  if service ≠ "" then
    { agent with m_cookieToBusService :=
        hash.insert agent.m_cookieToBusService agent.m_lastCookie service }.addWatchedService service
  else agent

theorem addExplicit_eq (hash : Hashing) (agent : Agent) (types : UInt32) (appName reason service : String) :
    agent.addInhibitionWithExplicitDBusService hash types appName reason service =
      ((agent.entered hash appName reason service).addInhibitionTypeHelper (agent.m_lastCookie+1) types,
        agent.m_lastCookie+1) := rfl

theorem addInhibition_eq (hash : Hashing) (agent : Agent) (types : UInt32) (appName reason : String)
    (caller : Option String) :
    agent.AddInhibition hash types appName reason caller =
      agent.addInhibitionWithExplicitDBusService hash types appName reason (caller.getD "") := by
  cases caller <;> rfl

theorem nonempty_getD (caller : Option String) : nonempty (caller.getD "") = caller.bind nonempty := by
  cases caller <;> rfl

theorem entered_types (hash : Hashing) (agent : Agent) (appName reason service : String) :
    (agent.entered hash appName reason service).m_typesToCookie = agent.m_typesToCookie := by
  unfold Agent.entered
  dsimp only
  split <;> simp

theorem entered_emitted (hash : Hashing) (agent : Agent) (appName reason service : String) :
    (agent.entered hash appName reason service).emitted = agent.emitted := by
  unfold Agent.entered
  dsimp only
  split <;> simp

theorem entered_apps (hash : Hashing) (agent : Agent) (appName reason service : String) :
    (agent.entered hash appName reason service).m_cookieToAppName =
      hash.insert agent.m_cookieToAppName (agent.m_lastCookie+1) (appName,reason) := by
  unfold Agent.entered
  dsimp only
  split <;> simp

theorem entered_lastCookie (hash : Hashing) (agent : Agent) (appName reason service : String) :
    (agent.entered hash appName reason service).m_lastCookie = agent.m_lastCookie+1 := by
  unfold Agent.entered
  dsimp only
  split <;> simp

theorem entered_bus (hash : Hashing) (agent : Agent) (appName reason service : String) :
    (agent.entered hash appName reason service).m_cookieToBusService =
      if service = "" then agent.m_cookieToBusService
      else hash.insert agent.m_cookieToBusService (agent.m_lastCookie+1) service := by
  unfold Agent.entered
  by_cases empty : service = "" <;> simp [empty]

theorem mem_entered_watched {appName reason service watched : String} :
    watched ∈ (agent.entered hash appName reason service).watchedServices ↔
      service ≠ "" ∧ watched = service ∨ watched ∈ agent.watchedServices := by
  unfold Agent.entered
  by_cases empty : service = ""
  · simp [empty]
  · simp [empty,mem_addWatchedService]

theorem nonempty_eq_some {service watched : String} :
    nonempty service = some watched ↔ service ≠ "" ∧ watched = service := by
  unfold nonempty
  split <;> simp_all [eq_comm]

theorem agrees_add (hash : Hashing) (agrees : Agrees agent ledger)
    (fresh : agent.Fresh) (types : UInt32) (appName reason service : String) :
    Agrees (agent.addInhibitionWithExplicitDBusService hash types appName reason service).1
      (ledger.add (agent.m_lastCookie+1) ⟨types,nonempty service⟩) := by
  obtain ⟨nonzero,unused⟩ := fresh
  have absent : agent.m_lastCookie+1 ∉ ledger.live.map (·.1) := fun at_ => unused ((agrees.apps _).mpr at_)
  have noEntry : ∀ request, (agent.m_lastCookie+1,request) ∉ ledger.live :=
    fun request at_ => absent (mem_map.mpr ⟨_,at_,rfl⟩)
  have noBus : agent.m_lastCookie+1 ∉ agent.m_cookieToBusService.map (·.1) := by
    intro at_
    obtain ⟨⟨cookie,held⟩,inside,rfl⟩ := mem_map.mp at_
    obtain ⟨request,entry,_⟩ := (agrees.bus _ _).mp inside
    exact noEntry request entry
  have newTypes : ∀ policy cookie, cookie ∈ (if Request.asks ⟨types,nonempty service⟩ policy then
      agent.m_typesToCookie policy++[agent.m_lastCookie+1] else agent.m_typesToCookie policy) ↔
      ∃ request, (cookie,request) ∈ (agent.m_lastCookie+1,Request.mk types (nonempty service)) :: ledger.live ∧
        request.asks policy = true := by
    intro policy cookie
    by_cases asks : Request.asks ⟨types,nonempty service⟩ policy = true
    · rw [if_pos asks,mem_append,agrees.types]
      constructor
      · rintro (⟨request,at_,yes⟩ | at_)
        · exact ⟨request,by simp [at_],yes⟩
        · rw [mem_singleton.mp at_]
          exact ⟨_,mem_cons_self,asks⟩
      · rintro ⟨request,at_,yes⟩
        rcases mem_cons.mp at_ with same | at_
        · simp [(Prod.mk.inj same).1]
        · exact .inl ⟨request,at_,yes⟩
    · rw [if_neg asks,agrees.types]
      constructor
      · rintro ⟨request,at_,yes⟩
        exact ⟨request,by simp [at_],yes⟩
      · rintro ⟨request,at_,yes⟩
        rcases mem_cons.mp at_ with same | at_
        · exact absurd ((Prod.mk.inj same).2 ▸ yes) asks
        · exact ⟨request,at_,yes⟩
  rw [addExplicit_eq,addInhibitionTypeHelper_eq _ _ _ (nonempty service),entered_types]
  constructor
  · intro cookie
    simp only [notified_apps,entered_apps,Ledger.add,Ledger.change,map_cons,mem_cons]
    rw [← agrees.apps,← remove_absent unused,Hashing.insert,((hash.perm _).map _).mem_iff,map_cons,
      mem_cons,remove_absent unused,remove_absent unused]
  · simp only [notified_apps,entered_apps]
    exact insert_nodup hash agrees.appsNodup _ _
  · simp only [Ledger.add,Ledger.change,map_cons,nodup_cons]
    exact ⟨absent,agrees.liveNodup⟩
  · intro cookie held
    simp only [notified_bus,entered_bus,Ledger.add,Ledger.change,mem_cons]
    by_cases empty : service = ""
    · rw [if_pos empty,agrees.bus]
      constructor
      · rintro ⟨request,at_,same⟩
        exact ⟨request,.inr at_,same⟩
      · rintro ⟨request,at_ | at_,same⟩
        · rw [(Prod.mk.inj at_).2] at same
          simp [nonempty,empty] at same
        · exact ⟨request,at_,same⟩
    · rw [if_neg empty,mem_insert,remove_absent noBus,agrees.bus]
      constructor
      · rintro (at_ | ⟨request,at_,same⟩)
        · obtain ⟨rfl,rfl⟩ := Prod.mk.inj at_
          exact ⟨_,.inl rfl,nonempty_eq_some.mpr ⟨empty,rfl⟩⟩
        · exact ⟨request,.inr at_,same⟩
      · rintro ⟨request,at_ | at_,same⟩
        · obtain ⟨rfl,rfl⟩ := Prod.mk.inj at_
          exact .inl (by rw [(nonempty_eq_some.mp same).2])
        · exact .inr ⟨request,at_,same⟩
  · simp only [notified_bus,entered_bus]
    split
    · exact agrees.busNodup
    · exact insert_nodup hash agrees.busNodup _ _
  · simp only [notified_types,Ledger.add,Ledger.change]
    exact newTypes
  · intro policy
    simp only [notified_types]
    split
    · rw [nodup_append]
      refine ⟨agrees.typesNodup policy,by simp,fun cookie at_ other same => ?_⟩
      obtain ⟨request,entry,_⟩ := (agrees.types _ _).mp at_
      rw [mem_singleton] at same
      rintro rfl
      exact noEntry request (same ▸ entry)
    · exact agrees.typesNodup policy
  · intro entry at_
    rcases mem_cons.mp at_ with rfl | at_
    · exact nonzero
    · exact agrees.cookies entry at_
  · intro entry at_
    rcases mem_cons.mp at_ with rfl | at_
    · exact fun same => (nonempty_eq_some.mp same).1 (nonempty_eq_some.mp same).2.symm
    · exact agrees.services entry at_
  · intro watched
    simp only [notified_watched,Ledger.add,Ledger.change,mem_cons]
    rw [mem_entered_watched,agrees.watched]
    constructor
    · rintro (⟨full,rfl⟩ | ⟨entry,at_,same⟩)
      · exact ⟨_,.inl rfl,nonempty_eq_some.mpr ⟨full,rfl⟩⟩
      · exact ⟨entry,.inr at_,same⟩
    · rintro ⟨entry,rfl | at_,same⟩
      · exact .inl (nonempty_eq_some.mp same)
      · exact .inr ⟨entry,at_,same⟩
  · refine notified_change newTypes ((entered_emitted ..).trans agrees.emitted) ?_
    rw [any_policies]
    refine exists_congr fun policy => ?_
    have old := nonempty_types (agrees.types policy)
    have more : inhibited ((agent.m_lastCookie+1,Request.mk types (nonempty service)) :: ledger.live) policy =
        (Request.asks ⟨types,nonempty service⟩ policy || inhibited ledger.live policy) := rfl
    rw [more,← old]
    cases Request.asks ⟨types,nonempty service⟩ policy <;> cases (agent.m_typesToCookie policy).isEmpty <;> simp

/-- The tables before the types are released. -/
def Agent.forgotten (agent : Agent) (cookie : UInt32) : Agent :=
  let service := (agent.m_cookieToBusService.lookup cookie).getD ""
  let agent := { agent with
    m_cookieToAppName := remove agent.m_cookieToAppName cookie
    m_cookieToBusService := remove agent.m_cookieToBusService cookie }
  if service ≠ "" ∧ keyOf agent.m_cookieToBusService service = 0 then agent.removeWatchedService service else agent

theorem releaseInhibition_eq (agent : Agent) (cookie : UInt32) : agent.ReleaseInhibition cookie =
    { agent.forgotten cookie with
      m_typesToCookie := fun policy => ((agent.forgotten cookie).m_typesToCookie policy).erase cookie }.notified
      ([ChangeProfile,ChangeScreenSettings,InterruptSession].any fun policy =>
        decide (cookie ∈ (agent.forgotten cookie).m_typesToCookie policy) &&
          (((agent.forgotten cookie).m_typesToCookie policy).erase cookie).isEmpty) :=
  releaseTypes_eq (agent.forgotten cookie) cookie

theorem forgotten_types (agent : Agent) (cookie : UInt32) :
    (agent.forgotten cookie).m_typesToCookie = agent.m_typesToCookie := by
  unfold Agent.forgotten
  dsimp only
  split <;> rfl

theorem forgotten_emitted (agent : Agent) (cookie : UInt32) : (agent.forgotten cookie).emitted = agent.emitted := by
  unfold Agent.forgotten
  dsimp only
  split <;> rfl

theorem forgotten_apps (agent : Agent) (cookie : UInt32) :
    (agent.forgotten cookie).m_cookieToAppName = remove agent.m_cookieToAppName cookie := by
  unfold Agent.forgotten
  dsimp only
  split <;> rfl

theorem forgotten_bus (agent : Agent) (cookie : UInt32) :
    (agent.forgotten cookie).m_cookieToBusService = remove agent.m_cookieToBusService cookie := by
  unfold Agent.forgotten
  dsimp only
  split <;> rfl

theorem forgotten_lastCookie (agent : Agent) (cookie : UInt32) :
    (agent.forgotten cookie).m_lastCookie = agent.m_lastCookie := by
  unfold Agent.forgotten
  dsimp only
  split <;> rfl

theorem mem_forgotten_watched {cookie : UInt32} {watched : String} :
    watched ∈ (agent.forgotten cookie).watchedServices ↔ watched ∈ agent.watchedServices ∧
      ¬(watched = (agent.m_cookieToBusService.lookup cookie).getD "" ∧ watched ≠ "" ∧
        keyOf (remove agent.m_cookieToBusService cookie) watched = 0) := by
  unfold Agent.forgotten
  dsimp only
  split
  · rename_i last
    simp only [Agent.removeWatchedService,mem_filter,decide_eq_true_eq]
    refine and_congr_right fun _ => not_congr ⟨fun same => ?_,fun either => either.1⟩
    subst same
    exact ⟨rfl,last⟩
  · rename_i more
    refine ⟨fun at_ => ⟨at_,?_⟩,fun both => both.1⟩
    rintro ⟨rfl,last⟩
    exact more last

theorem agrees_release (agrees : Agrees agent ledger) (cookie : UInt32) :
    Agrees (agent.ReleaseInhibition cookie) (ledger.release cookie) := by
  have newTypes : ∀ policy other, other ∈ (agent.m_typesToCookie policy).erase cookie ↔
      ∃ request, (other,request) ∈ remove ledger.live cookie ∧ request.asks policy = true := by
    intro policy other
    rw [(agrees.typesNodup policy).mem_erase_iff,agrees.types]
    simp only [mem_remove]
    constructor
    · rintro ⟨differ,request,at_,asks⟩
      exact ⟨request,⟨at_,differ⟩,asks⟩
    · rintro ⟨request,⟨at_,differ⟩,asks⟩
      exact ⟨differ,request,at_,asks⟩
  have busCookies : ∀ entry ∈ remove agent.m_cookieToBusService cookie, entry.1 ≠ 0 := by
    rintro ⟨other,held⟩ at_
    obtain ⟨request,entry,_⟩ := (agrees.bus _ _).mp (mem_remove.mp at_).1
    exact agrees.cookies _ entry
  rw [releaseInhibition_eq,forgotten_types]
  constructor
  · intro other
    have apps := agrees.apps other
    simp only [mem_map] at apps
    simp only [notified_apps,forgotten_apps,Ledger.release,Ledger.change,mem_map,mem_remove]
    constructor
    · rintro ⟨entry,⟨at_,differ⟩,rfl⟩
      obtain ⟨entry',at_',same⟩ := apps.mp ⟨entry,at_,rfl⟩
      exact ⟨entry',⟨at_',same ▸ differ⟩,same⟩
    · rintro ⟨entry,⟨at_,differ⟩,rfl⟩
      obtain ⟨entry',at_',same⟩ := apps.mpr ⟨entry,at_,rfl⟩
      exact ⟨entry',⟨at_',same ▸ differ⟩,same⟩
  · simp only [notified_apps,forgotten_apps]
    exact remove_nodup agrees.appsNodup cookie
  · exact remove_nodup agrees.liveNodup cookie
  · intro other held
    simp only [notified_bus,forgotten_bus,Ledger.release,Ledger.change,mem_remove,agrees.bus]
    constructor
    · rintro ⟨⟨request,at_,same⟩,differ⟩
      exact ⟨request,⟨at_,differ⟩,same⟩
    · rintro ⟨request,⟨at_,differ⟩,same⟩
      exact ⟨⟨request,at_,same⟩,differ⟩
  · simp only [notified_bus,forgotten_bus]
    exact remove_nodup agrees.busNodup cookie
  · simp only [notified_types,Ledger.release,Ledger.change]
    exact newTypes
  · intro policy
    simp only [notified_types]
    exact (agrees.typesNodup policy).erase cookie
  · exact fun entry at_ => agrees.cookies entry (mem_remove.mp at_).1
  · exact fun entry at_ => agrees.services entry (mem_remove.mp at_).1
  · intro watched
    simp only [notified_watched,Ledger.release,Ledger.change]
    rw [mem_forgotten_watched,agrees.watched,keyOf_eq_zero busCookies]
    constructor
    · rintro ⟨⟨⟨other,request⟩,at_,same⟩,more⟩
      by_cases own : other = cookie
      · subst own
        have held : agent.m_cookieToBusService.lookup other = some watched :=
          (lookup_eq_some agrees.busNodup).mpr ((agrees.bus _ _).mpr ⟨request,at_,same⟩)
        have full : watched ≠ "" := fun empty => agrees.services _ at_ (empty ▸ same)
        simp only [held,Option.getD_some,true_and,not_and] at more
        have := more full
        push Not at this
        obtain ⟨⟨other',held'⟩,at_',same'⟩ := this
        obtain ⟨at_',differ⟩ := mem_remove.mp at_'
        obtain ⟨request',entry',holds⟩ := (agrees.bus _ _).mp at_'
        exact ⟨_,mem_remove.mpr ⟨entry',differ⟩,by rw [holds]; exact congrArg some same'⟩
      · exact ⟨_,mem_remove.mpr ⟨at_,own⟩,same⟩
    · rintro ⟨⟨other,request⟩,at_,same⟩
      obtain ⟨at_,differ⟩ := mem_remove.mp at_
      refine ⟨⟨_,at_,same⟩,?_⟩
      rintro ⟨_,_,last⟩
      exact last _ (mem_remove.mpr ⟨(agrees.bus _ _).mpr ⟨request,at_,same⟩,differ⟩) rfl
  · refine notified_change newTypes ((forgotten_emitted ..).trans agrees.emitted) ?_
    rw [any_policies]
    refine exists_congr fun policy => ?_
    have old := nonempty_types (agrees.types policy)
    have new := nonempty_types (newTypes policy)
    rw [← old,← new]
    by_cases inside : cookie ∈ agent.m_typesToCookie policy
    · have full : (agent.m_typesToCookie policy).isEmpty = false := by
        simpa using ne_nil_of_mem inside
      rw [full]
      cases ((agent.m_typesToCookie policy).erase cookie).isEmpty <;> simp [inside]
    · simp [inside,erase_of_not_mem]

theorem agrees_releases (agrees : Agrees agent ledger) (cookies : List UInt32) :
    Agrees (cookies.foldl Agent.ReleaseInhibition agent) (cookies.foldl Ledger.release ledger) := by
  induction cookies generalizing agent ledger with
  | nil => exact agrees
  | cons cookie cookies ih => exact ih (agrees_release agrees cookie)

theorem agrees_initial : Agrees .initial .empty := by
  constructor <;> simp [Agent.initial,Ledger.empty]

theorem helper_lastCookie (agent : Agent) (cookie types : UInt32) :
    (agent.addInhibitionTypeHelper cookie types).m_lastCookie = agent.m_lastCookie := by
  rw [addInhibitionTypeHelper_eq agent cookie types none]
  simp

theorem agrees_call (hash : Hashing) (agrees : Agrees agent ledger) (call : Call) (fresh : call.Adds → agent.Fresh) :
    ∃ ledger', Ledger.Step (agent.call hash call).m_lastCookie ledger call ledger' ∧
      Agrees (agent.call hash call) ledger' := by
  have cookie : ∀ types appName reason service,
      (agent.addInhibitionWithExplicitDBusService hash types appName reason service).1.m_lastCookie =
        agent.m_lastCookie+1 := by
    intro types appName reason service
    rw [addExplicit_eq,helper_lastCookie,entered_lastCookie]
  cases call with
  | AddInhibition types appName reason caller =>
    have after := agrees_add hash agrees (fresh trivial) types appName reason (caller.getD "")
    simp only [Agent.call,addInhibition_eq,cookie]
    rw [nonempty_getD] at after
    exact ⟨_,.add,after⟩
  | addInhibitionWithExplicitDBusService types appName reason service =>
    simp only [Agent.call,cookie]
    exact ⟨_,.addExplicit,agrees_add hash agrees (fresh trivial) types appName reason service⟩
  | ReleaseInhibition other => exact ⟨_,.release,agrees_release agrees other⟩
  | releaseAllInhibitions =>
    have perm : (agent.m_cookieToAppName.map (·.1)).Perm (ledger.live.map (·.1)) :=
      (perm_ext_iff_of_nodup agrees.appsNodup agrees.liveNodup).mpr agrees.apps
    exact ⟨_,.all _ perm,agrees_releases agrees _⟩
  | onServiceUnregistered serviceName =>
    have perm : (keysOf agent.m_cookieToBusService serviceName).Perm
        ((ledger.live.filter (·.2.service = some serviceName)).map (·.1)) := by
      refine (perm_ext_iff_of_nodup ?_ ?_).mpr fun other => ?_
      · exact agrees.busNodup.sublist (filter_sublist.map _)
      · exact agrees.liveNodup.sublist (filter_sublist.map _)
      · simp only [keysOf,mem_map,mem_filter,decide_eq_true_eq]
        constructor
        · rintro ⟨⟨other,held⟩,⟨at_,rfl⟩,rfl⟩
          obtain ⟨request,entry,same⟩ := (agrees.bus _ _).mp at_
          exact ⟨_,⟨entry,same⟩,rfl⟩
        · rintro ⟨⟨other,request⟩,⟨at_,same⟩,rfl⟩
          exact ⟨_,⟨(agrees.bus _ _).mpr ⟨request,at_,same⟩,rfl⟩,rfl⟩
    refine ⟨_,.gone _ perm,?_⟩
    simp only [Agent.call,Agent.onServiceUnregistered]
    split
    · exact agrees_releases agrees _
    · rename_i absent
      have none_ : keysOf agent.m_cookieToBusService serviceName = [] := by
        rw [keysOf,map_eq_nil_iff,filter_eq_nil_iff]
        intro entry at_ same
        exact absent (mem_map.mpr ⟨entry,at_,by simpa using same⟩)
      simpa [none_] using agrees

theorem agrees_calls (agrees : Agrees agent ledger) {calls : List Call} (fresh : AllFresh hash agent calls) :
    ∃ ledger', Follows hash agent ledger calls ledger' ∧ Agrees (calls.foldl (Agent.call hash) agent) ledger' := by
  induction calls generalizing agent ledger with
  | nil => exact ⟨ledger,.done,agrees⟩
  | cons call calls ih =>
    obtain ⟨ledger',step,after⟩ := agrees_call hash agrees call fresh.1
    obtain ⟨ledger'',rest,end_⟩ := ih after fresh.2
    exact ⟨ledger'',.call step rest,end_⟩

/-- After any calls whose cookies are fresh, the policies, the services and the signals are those of the
requests which have not been released. -/
theorem inhibitions_kept (hash : Hashing) (calls : List Call) (fresh : AllFresh hash .initial calls) :
    ∃ ledger, Follows hash .initial .empty calls ledger ∧ Told (calls.foldl (Agent.call hash) .initial) ledger := by
  obtain ⟨ledger,follows,agrees⟩ := agrees_calls agrees_initial fresh
  exact ⟨ledger,follows,agrees.told⟩

def Hashing.plain : Hashing := ⟨id,fun _ => .refl _⟩

/-- A service is watched for one request, and its policies come and go. -/
theorem inhibitions_kept_once :
    AllFresh .plain .initial [.AddInhibition 4 "player" "film" (some ":1.7"),.onServiceUnregistered ":1.7"] ∧
    ∃ ledger, Follows .plain .initial .empty
        [.AddInhibition 4 "player" "film" (some ":1.7"),.onServiceUnregistered ":1.7"] ledger ∧
      Told (([.AddInhibition 4 "player" "film" (some ":1.7"),.onServiceUnregistered ":1.7"] : List Call).foldl
        (Agent.call .plain) .initial) ledger := by
  have fresh : AllFresh .plain .initial
      [.AddInhibition 4 "player" "film" (some ":1.7"),.onServiceUnregistered ":1.7"] := by
    refine ⟨fun _ => ⟨by decide,by decide⟩,fun adds => ?_,trivial⟩
    exact adds.elim
  exact ⟨fresh,inhibitions_kept .plain _ fresh⟩

theorem helper_bus (agent : Agent) (cookie types : UInt32) :
    (agent.addInhibitionTypeHelper cookie types).m_cookieToBusService = agent.m_cookieToBusService := by
  rw [addInhibitionTypeHelper_eq agent cookie types none]
  simp

theorem helper_watched (agent : Agent) (cookie types : UInt32) :
    (agent.addInhibitionTypeHelper cookie types).watchedServices = agent.watchedServices := by
  rw [addInhibitionTypeHelper_eq agent cookie types none]
  simp

theorem releases_live (cookies : List UInt32) (ledger : Ledger) :
    (cookies.foldl Ledger.release ledger).live = ledger.live.filter fun entry => entry.1 ∉ cookies := by
  induction cookies generalizing ledger with
  | nil => simp
  | cons cookie cookies ih =>
    rw [foldl_cons,ih,Ledger.release,Ledger.change,remove,filter_filter]
    refine filter_congr fun entry _ => ?_
    simp [Bool.and_comm]

/-- No service has asked for anything. -/
structure Unasked (agent : Agent) : Prop where
  bus : agent.m_cookieToBusService = []
  watched : agent.watchedServices = []

theorem Unasked.add (unasked : Unasked agent) :
    Unasked (agent.call .plain (.addInhibitionWithExplicitDBusService 0 "" "" "")) ∧
    (agent.call .plain (.addInhibitionWithExplicitDBusService 0 "" "" "")).m_lastCookie = agent.m_lastCookie+1 := by
  simp only [Agent.call,addExplicit_eq,helper_lastCookie,entered_lastCookie,and_true]
  refine ⟨?_,?_⟩
  · rw [helper_bus,entered_bus,if_pos rfl,unasked.bus]
  · rw [helper_watched,Agent.entered]
    simp [unasked.watched]

theorem Unasked.release (unasked : Unasked agent) (cookie : UInt32) :
    Unasked (agent.ReleaseInhibition cookie) ∧ (agent.ReleaseInhibition cookie).m_lastCookie = agent.m_lastCookie := by
  rw [releaseInhibition_eq]
  refine ⟨⟨?_,?_⟩,?_⟩
  · simp [forgotten_bus,unasked.bus,remove]
  · simp [Agent.forgotten,unasked.bus,unasked.watched]
  · simp [forgotten_lastCookie]

theorem Unasked.releases (unasked : Unasked agent) (cookies : List UInt32) :
    Unasked (cookies.foldl Agent.ReleaseInhibition agent) ∧
    (cookies.foldl Agent.ReleaseInhibition agent).m_lastCookie = agent.m_lastCookie := by
  induction cookies generalizing agent with
  | nil => exact ⟨unasked,rfl⟩
  | cons cookie cookies ih =>
    have step := unasked.release cookie
    have rest := ih step.1
    exact ⟨rest.1,rest.2.trans step.2⟩

theorem Unasked.adds (unasked : Unasked agent) (n : Nat) :
    Unasked ((List.replicate n (.addInhibitionWithExplicitDBusService 0 "" "" "")).foldl (Agent.call .plain) agent) ∧
    ((List.replicate n (.addInhibitionWithExplicitDBusService 0 "" "" "")).foldl (Agent.call .plain)
      agent).m_lastCookie = agent.m_lastCookie+UInt32.ofNat n := by
  induction n generalizing agent with
  | zero => simpa using unasked
  | succ n ih =>
    have step := unasked.add
    have rest := ih step.1
    refine ⟨rest.1,?_⟩
    rw [replicate_succ,foldl_cons,rest.2,step.2,UInt32.ofNat_add,UInt32.add_assoc, UInt32.add_comm 1]
    rfl

theorem Follows.head {ledger ledger'' : Ledger} {call : Call} {calls : List Call}
    (follows : Follows hash agent ledger (call :: calls) ledger'') :
    ∃ ledger', Ledger.Step (agent.call hash call).m_lastCookie ledger call ledger' ∧
      Follows hash (agent.call hash call) ledger' calls ledger'' := by
  cases follows with
  | call step rest => exact ⟨_,step,rest⟩

theorem Follows.over {ledger ledger' : Ledger}
    (follows : Follows hash agent ledger [] ledger') : ledger' = ledger := by
  cases follows
  rfl

theorem follows_append {ledger ledger'' : Ledger} {before after : List Call}
    (follows : Follows hash agent ledger (before++after) ledger'') :
    ∃ ledger', Follows hash (before.foldl (Agent.call hash) agent) ledger' after ledger'' := by
  induction before generalizing agent ledger with
  | nil => exact ⟨ledger,follows⟩
  | cons call before ih =>
    obtain ⟨_,_,rest⟩ := Follows.head follows
    exact ih rest

/-- The cookies come round: a service has the cookies 0 and 1, gives back 1, and is watched no longer. -/
def wrapped : List Call :=
  List.replicate (2^32-1) (.addInhibitionWithExplicitDBusService 0 "" "" "")++
    [.releaseAllInhibitions,.addInhibitionWithExplicitDBusService 1 "" "" "player",
      .addInhibitionWithExplicitDBusService 1 "" "" "player",.ReleaseInhibition 1]

theorem call_tables (agent : Agent) (types : UInt32) (appName reason service : String) :
    (agent.call .plain (.addInhibitionWithExplicitDBusService types appName reason service)).m_lastCookie =
      agent.m_lastCookie+1 ∧
    (agent.call .plain (.addInhibitionWithExplicitDBusService types appName reason service)).m_cookieToBusService =
      if service = "" then agent.m_cookieToBusService
      else (agent.m_lastCookie+1,service) :: remove agent.m_cookieToBusService (agent.m_lastCookie+1) := by
  simp only [Agent.call,addExplicit_eq,helper_lastCookie,entered_lastCookie,helper_bus,entered_bus,true_and]
  rfl

theorem unwatched_release {ledger ledger' : Ledger} (quiet : Unasked agent)
    (last : agent.m_lastCookie+1 = 0) (none_ : ledger.live = [])
    (follows : Follows .plain agent ledger [.addInhibitionWithExplicitDBusService 1 "" "" "player",
      .addInhibitionWithExplicitDBusService 1 "" "" "player",.ReleaseInhibition 1] ledger') :
    ¬Told (([.addInhibitionWithExplicitDBusService 1 "" "" "player",
      .addInhibitionWithExplicitDBusService 1 "" "" "player",.ReleaseInhibition 1] : List Call).foldl
        (Agent.call .plain) agent) ledger' := by
  intro told
  have first := call_tables agent 1 "" "" "player"
  have second := call_tables (agent.call .plain (.addInhibitionWithExplicitDBusService 1 "" "" "player")) 1 "" ""
    "player"
  simp only [first,last,quiet.bus] at second
  obtain ⟨_,one,follows⟩ := follows.head
  obtain ⟨_,two,follows⟩ := follows.head
  obtain ⟨_,three,follows⟩ := follows.head
  obtain rfl := follows.over
  cases one
  cases two
  cases three
  simp only [first,last,second] at told
  have live : (0,Request.mk 1 (some "player")) ∈
      (((ledger.add 0 ⟨1,nonempty "player"⟩).add (0+1) ⟨1,nonempty "player"⟩).release 1).live := by
    simp [Ledger.add,Ledger.release,Ledger.change,none_,remove,nonempty]
  have watched := (told.watched "player").mpr ⟨_,live,rfl⟩
  simp only [foldl_cons,foldl_nil] at watched
  rw [show ∀ a,Agent.call .plain a (.ReleaseInhibition 1) = a.ReleaseInhibition 1 from fun _ => rfl,
    releaseInhibition_eq,notified_watched,mem_forgotten_watched,second.2] at watched
  exact watched.2 (by decide)

theorem wrapped_unwatched :
    ¬∃ ledger, Follows .plain .initial .empty wrapped ledger ∧
      Told (wrapped.foldl (Agent.call .plain) .initial) ledger := by
  rintro ⟨ledger,follows,told⟩
  have start : Unasked .initial := ⟨rfl,rfl⟩
  obtain ⟨unasked,cookie⟩ := start.adds (2^32-1)
  rw [wrapped,foldl_append] at told
  obtain ⟨ledger',follows⟩ := follows_append follows
  generalize (replicate (2^32-1) (Call.addInhibitionWithExplicitDBusService 0 "" "" "")).foldl
    (Agent.call .plain) .initial = agent at *
  obtain ⟨quiet,last⟩ := unasked.releases (agent.m_cookieToAppName.map (·.1))
  rw [cookie] at last
  obtain ⟨_,all,follows⟩ := follows.head
  cases all with | all cookies perm => ?_
  have gone : (cookies.foldl Ledger.release ledger').live = [] := by
    rw [releases_live,filter_eq_nil_iff]
    intro entry at_
    simpa using perm.mem_iff.mpr (mem_map.mpr ⟨entry,at_,rfl⟩)
  have round : (agent.call .plain .releaseAllInhibitions).m_lastCookie+1 = 0 := by
    have : (agent.call .plain .releaseAllInhibitions).m_lastCookie = 0+UInt32.ofNat (2^32-1) := last
    rw [this]
    decide
  rw [foldl_cons] at told
  exact unwatched_release quiet round gone follows told

end KdeWorkspace.PolicyAgent
