import Mathlib.Algebra.Ring.Int.Defs
import Mathlib.Data.List.Basic

/-!
The power profiles of PowerDevil, as its core chooses them by the adapter and the charge of the batteries, and
the timer which runs when the batteries get critical.

`right_step_iff` says which events leave the profile or the timer behind, and `right_iff` carries it through a
run of the events after the core has got ready. Nobody inhibits a change of the profile, the profiles exist,
and what a profile does and what the user is told are not looked at.
-/
namespace KdeWorkspace.PowerProfiles
open List

inductive AcAdapterState
  | UnknownAcAdapterState
  | Plugged
  | Unplugged
deriving DecidableEq, Repr

open AcAdapterState

inductive Profile
  | AC
  | LowBattery
  | Battery
deriving DecidableEq, Repr

inductive BatteryType
  | PrimaryBattery
  | UpsBattery
  | other
deriving DecidableEq, Repr

/-- The battery behind a device. -/
structure Battery where
  type : BatteryType
  isPowerSupply : Bool
  chargePercent : Int
  noCharge : Bool
deriving DecidableEq

/-- The mode which stands for an action of the suspension. -/
inductive CriticalAction
  | ShutdownMode
  | ToDiskMode
  | ToRamMode
  | other
deriving DecidableEq, Repr

structure PowerDevilSettings where
  batteryLowLevel : Int
  batteryCriticalLevel : Int
  batteryCriticalAction : CriticalAction

/-- `acAdapterState` is that of the backend, and `m_criticalBatteryTimer` is whether the timer is active. -/
structure Core where
  acAdapterState : AcAdapterState
  m_loadedBatteriesUdi : List String
  m_batteriesPercent : List (String × Int)
  m_batteriesCharged : List (String × Bool)
  m_criticalBatteryTimer : Bool
  m_currentProfile : Option Profile
deriving DecidableEq

def insert {α : Type} (table : List (String × α)) (udi : String) (value : α) : List (String × α) :=
  (udi,value) :: table.filter (·.1 ≠ udi)

def remove {α : Type} (table : List (String × α)) (udi : String) : List (String × α) := table.filter (·.1 ≠ udi)

/-- The charge of all batteries together. -/
def globalPercent (table : List (String × Int)) : Int := (table.map (·.2)).sum

namespace Core

def loadProfile (settings : PowerDevilSettings) (core : Core) : Core :=
  let profileId :=
    if core.m_loadedBatteriesUdi.isEmpty then Profile.AC
    else if core.acAdapterState = Plugged then .AC
    else if globalPercent core.m_batteriesPercent ≤ settings.batteryLowLevel then .LowBattery
    else .Battery
  if core.m_currentProfile = some profileId then core else { core with m_currentProfile := some profileId }

/-- Whether the action for a critical battery has a timer. -/
def starts (settings : PowerDevilSettings) : Bool :=
  match settings.batteryCriticalAction with
  | .ShutdownMode => true
  | .ToDiskMode => true
  | .ToRamMode => true
  | .other => false

def emitBatteryChargePercentNotification (settings : PowerDevilSettings) (core : Core)
    (currentPercent previousPercent : Int) : Core × Bool :=
  if core.acAdapterState = Plugged then (core,false)
  else if currentPercent ≤ settings.batteryCriticalLevel ∧ previousPercent > settings.batteryCriticalLevel then
    (if starts settings then { core with m_criticalBatteryTimer := true } else core,true)
  else if currentPercent ≤ settings.batteryLowLevel ∧ previousPercent > settings.batteryLowLevel then (core,true)
  else (core,false)

def onDeviceAdded (settings : PowerDevilSettings) (core : Core) (udi : String) (device : Option Battery) : Core :=
  if udi ∈ core.m_loadedBatteriesUdi then core
  else
    match device with
    | none => core
    | some b =>
      if b.type ≠ .PrimaryBattery ∧ b.type ≠ .UpsBattery then core
      else if !b.isPowerSupply then core
      else
        let core := { core with
          m_batteriesPercent := insert core.m_batteriesPercent udi b.chargePercent
          m_batteriesCharged := insert core.m_batteriesCharged udi b.noCharge
          m_loadedBatteriesUdi := core.m_loadedBatteriesUdi++[udi] }
        let globalChargePercent := globalPercent core.m_batteriesPercent
        let core :=
          if core.m_criticalBatteryTimer ∧ globalChargePercent > settings.batteryCriticalLevel then
            { core with m_criticalBatteryTimer := false }
          else core
        (core.emitBatteryChargePercentNotification settings globalChargePercent 100).1

def onDeviceRemoved (core : Core) (udi : String) : Core :=
  if udi ∉ core.m_loadedBatteriesUdi then core
  else { core with
    m_batteriesPercent := remove core.m_batteriesPercent udi
    m_batteriesCharged := remove core.m_batteriesCharged udi
    m_loadedBatteriesUdi := core.m_loadedBatteriesUdi.erase udi }

/-- The backend has set the state before it tells about it. -/
def onAcAdapterStateChanged (settings : PowerDevilSettings) (core : Core) (state : AcAdapterState) : Core :=
  let core := { core with acAdapterState := state }.loadProfile settings
  if state = Plugged then { core with m_criticalBatteryTimer := false } else core

def onBatteryChargePercentChanged (settings : PowerDevilSettings) (core : Core) (percent : Int) (udi : String) : Core :=
  let previousPercent := globalPercent core.m_batteriesPercent
  let currentPercent := previousPercent-((core.m_batteriesPercent.lookup udi).getD 0-percent)
  let core := { core with m_batteriesPercent := insert core.m_batteriesPercent udi percent }
  if currentPercent < previousPercent then
    let (core,emitted) := core.emitBatteryChargePercentNotification settings currentPercent previousPercent
    if emitted then core.loadProfile settings else core
  else core

def onBatteryChargeStateChanged (settings : PowerDevilSettings) (core : Core) (noCharge : Bool) (udi : String) : Core :=
  let previousCharged := core.m_batteriesCharged.all (·.2)
  let core := { core with m_batteriesCharged := insert core.m_batteriesCharged udi noCharge }
  if core.acAdapterState ≠ Plugged then core
  else if !previousCharged && core.m_batteriesCharged.all (·.2) then core.loadProfile settings
  else core

end Core

/-- The batteries tell about their charge as long as they are loaded. -/
inductive Event
  | deviceAdded (udi : String) (device : Option Battery)
  | deviceRemoved (udi : String)
  | acAdapterStateChanged (state : AcAdapterState)
  | chargePercentChanged (percent : Int) (udi : String)
  | chargeStateChanged (noCharge : Bool) (udi : String)
  | criticalBatteryTimerExpired
deriving DecidableEq

def Core.step (settings : PowerDevilSettings) (core : Core) : Event → Core
  | .deviceAdded udi device => core.onDeviceAdded settings udi device
  | .deviceRemoved udi => core.onDeviceRemoved udi
  | .acAdapterStateChanged state => core.onAcAdapterStateChanged settings state
  | .chargePercentChanged percent udi =>
    if udi ∈ core.m_loadedBatteriesUdi then core.onBatteryChargePercentChanged settings percent udi else core
  | .chargeStateChanged noCharge udi =>
    if udi ∈ core.m_loadedBatteriesUdi then core.onBatteryChargeStateChanged settings noCharge udi else core
  | .criticalBatteryTimerExpired => { core with m_criticalBatteryTimer := false }

/-- `onBackendReady`: the batteries which are there are added, and a profile is loaded. -/
def Core.ready (settings : PowerDevilSettings) (state : AcAdapterState) (devices : List (String × Option Battery)) : Core :=
  (devices.foldl (fun (core : Core) device => core.onDeviceAdded settings device.1 device.2)
    ⟨state,[],[],[],false,none⟩).loadProfile settings

def Core.percent (core : Core) : Int := globalPercent core.m_batteriesPercent

/-- The profile for the adapter and the charge of the batteries. -/
def profileFor (settings : PowerDevilSettings) (core : Core) : Profile :=
  if core.m_loadedBatteriesUdi = [] ∨ core.acAdapterState = Plugged then .AC
  else if core.percent ≤ settings.batteryLowLevel then .LowBattery
  else .Battery

structure Right (settings : PowerDevilSettings) (core : Core) : Prop where
  profile : core.m_currentProfile = some (profileFor settings core)
  timer : core.m_criticalBatteryTimer = true →
    core.acAdapterState = Unplugged ∧ core.percent ≤ settings.batteryCriticalLevel

/-- An event which reaches the core as that of a battery that it did not know. -/
def Adds (core : Core) (udi : String) (device : Option Battery) (percent : Int) : Prop :=
  udi ∉ core.m_loadedBatteriesUdi ∧ ∃ b, device = some b ∧ (b.type = .PrimaryBattery ∨ b.type = .UpsBattery) ∧
    b.isPowerSupply = true ∧ b.chargePercent = percent

/-- The charge is on the same side of the low level as before. -/
def SameSide (settings : PowerDevilSettings) (before after : Int) : Prop :=
  before ≤ settings.batteryLowLevel ↔ after ≤ settings.batteryLowLevel

/-- The charge comes down to the critical level, and this starts the timer. -/
def Alarms (settings : PowerDevilSettings) (before after : Int) : Prop :=
  after ≤ settings.batteryCriticalLevel ∧ settings.batteryCriticalLevel < before ∧ Core.starts settings = true

/-- What must not happen without the core noticing it: off the adapter, the first battery comes, the last one goes,
the charge rises above the low level, or a battery which comes or goes takes it across; the charge rises above the
critical level while the timer runs and no battery has come; and the timer runs with an adapter nobody knows
about. -/
def Noticed (settings : PowerDevilSettings) (core : Core) : Event → Prop
  | .deviceAdded udi device => ∀ percent, Adds core udi device percent →
    core.acAdapterState ≠ Plugged →
      core.m_loadedBatteriesUdi ≠ [] ∧
      SameSide settings core.percent (globalPercent (insert core.m_batteriesPercent udi percent)) ∧
      (core.acAdapterState = UnknownAcAdapterState →
        ¬Alarms settings 100 (globalPercent (insert core.m_batteriesPercent udi percent)))
  | .deviceRemoved udi => udi ∈ core.m_loadedBatteriesUdi →
    (core.acAdapterState ≠ Plugged → core.m_loadedBatteriesUdi ≠ [udi] ∧
      SameSide settings core.percent (globalPercent (remove core.m_batteriesPercent udi))) ∧
    (core.m_criticalBatteryTimer = true →
      globalPercent (remove core.m_batteriesPercent udi) ≤ settings.batteryCriticalLevel)
  | .acAdapterStateChanged state => state = UnknownAcAdapterState → core.m_criticalBatteryTimer = false
  | .chargePercentChanged percent udi => udi ∈ core.m_loadedBatteriesUdi →
    core.acAdapterState ≠ Plugged →
      (core.percent ≤ settings.batteryLowLevel →
        globalPercent (insert core.m_batteriesPercent udi percent) ≤ settings.batteryLowLevel) ∧
      (core.m_criticalBatteryTimer = true →
        globalPercent (insert core.m_batteriesPercent udi percent) ≤ settings.batteryCriticalLevel) ∧
      (core.acAdapterState = UnknownAcAdapterState →
        ¬Alarms settings core.percent (globalPercent (insert core.m_batteriesPercent udi percent)))
  | .chargeStateChanged _ _ => True
  | .criticalBatteryTimerExpired => True

theorem loadProfile_eq (settings : PowerDevilSettings) (core : Core) :
    core.loadProfile settings = { core with m_currentProfile := some (profileFor settings core) } := by
  have same : (if core.m_loadedBatteriesUdi.isEmpty then Profile.AC
      else if core.acAdapterState = Plugged then .AC
      else if globalPercent core.m_batteriesPercent ≤ settings.batteryLowLevel then .LowBattery
      else .Battery) = profileFor settings core := by
    unfold profileFor Core.percent
    by_cases none_ : core.m_loadedBatteriesUdi = [] <;> by_cases plugged : core.acAdapterState = Plugged <;>
      simp [none_,plugged]
  unfold Core.loadProfile
  dsimp only
  rw [same]
  split
  · rename_i already
    rw [← already]
  · rfl

variable {settings : PowerDevilSettings}

theorem profileFor_eq_iff {core core' : Core} (state : core'.acAdapterState = core.acAdapterState) :
    profileFor settings core = profileFor settings core' ↔ (core.acAdapterState ≠ Plugged →
      (core.m_loadedBatteriesUdi = [] ↔ core'.m_loadedBatteriesUdi = []) ∧
      (core.m_loadedBatteriesUdi ≠ [] → SameSide settings core.percent core'.percent)) := by
  unfold profileFor SameSide
  rw [state]
  by_cases off : core.acAdapterState = Plugged
  · simp [off]
  · by_cases none_ : core.m_loadedBatteriesUdi = [] <;> by_cases none' : core'.m_loadedBatteriesUdi = [] <;>
      by_cases low : core.percent ≤ settings.batteryLowLevel <;>
      by_cases low' : core'.percent ≤ settings.batteryLowLevel <;> simp [off,none_,none',low,low']

theorem right_same_iff {core core' : Core} (right : Right settings core)
    (state : core'.acAdapterState = core.acAdapterState) (profile : core'.m_currentProfile = core.m_currentProfile) :
    Right settings core' ↔ profileFor settings core = profileFor settings core' ∧
      (core'.m_criticalBatteryTimer = true →
        core.acAdapterState = Unplugged ∧ core'.percent ≤ settings.batteryCriticalLevel) := by
  have same : core'.m_currentProfile = some (profileFor settings core') ↔
      profileFor settings core = profileFor settings core' := by
    rw [profile,right.profile,Option.some.injEq]
  constructor
  · rintro ⟨profile,timer⟩
    exact ⟨same.mp profile,state ▸ timer⟩
  · rintro ⟨profile,timer⟩
    exact ⟨same.mpr profile,state ▸ timer⟩

/-- A battery has one entry. -/
def Keyed (core : Core) : Prop := (core.m_batteriesPercent.map (·.1)).Nodup

theorem remove_nodup {α : Type} {table : List (String × α)} (nodup : (table.map (·.1)).Nodup) (udi : String) :
    ((remove table udi).map (·.1)).Nodup :=
  nodup.sublist (filter_sublist.map _)

theorem insert_nodup {α : Type} {table : List (String × α)} (nodup : (table.map (·.1)).Nodup) (udi : String)
    (value : α) : ((insert table udi value).map (·.1)).Nodup := by
  rw [insert,map_cons,nodup_cons]
  refine ⟨fun at_ => ?_,remove_nodup nodup udi⟩
  obtain ⟨entry,inside,same⟩ := mem_map.mp at_
  simp only [mem_filter,decide_eq_true_eq] at inside
  exact inside.2 same

theorem globalPercent_cons (entry : String × Int) (table : List (String × Int)) :
    globalPercent (entry :: table) = entry.2+globalPercent table := by
  simp [globalPercent]

theorem globalPercent_remove {table : List (String × Int)} (nodup : (table.map (·.1)).Nodup) (udi : String) :
    globalPercent (remove table udi) = globalPercent table-(table.lookup udi).getD 0 := by
  induction table with
  | nil => simp [globalPercent,remove]
  | cons entry table ih =>
    obtain ⟨other,value⟩ := entry
    simp only [map_cons,nodup_cons] at nodup
    by_cases same : other = udi
    · subst same
      have absent : remove ((other,value) :: table) other = table := by
        rw [remove,filter_cons_of_neg (by simp),filter_eq_self]
        intro entry at_
        have : entry.1 ≠ other := fun same => nodup.1 (mem_map.mpr ⟨entry,at_,same⟩)
        simpa using this
      rw [absent,globalPercent_cons,lookup_cons_self,Option.getD_some]
      omega
    · have differ : (udi == other) = false := beq_eq_false_iff_ne.mpr (Ne.symm same)
      have kept : remove ((other,value) :: table) udi = (other,value) :: remove table udi := by
        rw [remove,filter_cons_of_pos (by simpa using same),remove]
      have found : ((other,value) :: table).lookup udi = table.lookup udi := by rw [lookup_cons,differ]
      rw [kept,globalPercent_cons,globalPercent_cons,ih nodup.2,found]
      omega

theorem globalPercent_insert (table : List (String × Int)) (udi : String) (percent : Int) :
    globalPercent (insert table udi percent) = percent+globalPercent (remove table udi) := by
  simp [globalPercent,insert,remove]

variable {core : Core}

theorem currentPercent_eq (keyed : Keyed core) (percent : Int) (udi : String) :
    globalPercent core.m_batteriesPercent-((core.m_batteriesPercent.lookup udi).getD 0-percent) =
      globalPercent (insert core.m_batteriesPercent udi percent) := by
  rw [globalPercent_insert,globalPercent_remove keyed]
  omega

/-- Whether the timer is started. -/
def alarms (settings : PowerDevilSettings) (core : Core) (before after : Int) : Bool :=
  core.acAdapterState ≠ Plugged && after ≤ settings.batteryCriticalLevel && settings.batteryCriticalLevel < before &&
    Core.starts settings

theorem alarms_iff {before after : Int} :
    alarms settings core before after = true ↔ core.acAdapterState ≠ Plugged ∧ Alarms settings before after := by
  simp [alarms,Alarms,and_assoc]

theorem emit_fst (settings : PowerDevilSettings) (core : Core) (current previous : Int) :
    (core.emitBatteryChargePercentNotification settings current previous).1 =
      { core with m_criticalBatteryTimer := core.m_criticalBatteryTimer || alarms settings core previous current } := by
  unfold Core.emitBatteryChargePercentNotification alarms
  by_cases plugged : core.acAdapterState = Plugged
  · have on : decide (core.acAdapterState ≠ Plugged) = false := by simp [plugged]
    rw [if_pos plugged,on]
    simp
  · by_cases critical : current ≤ settings.batteryCriticalLevel ∧ previous > settings.batteryCriticalLevel
    · obtain ⟨low,high⟩ := critical
      cases Core.starts settings <;> simp [plugged,low,high]
    · have quiet : (decide (current ≤ settings.batteryCriticalLevel) &&
          decide (settings.batteryCriticalLevel < previous)) = false := by
        rw [Bool.eq_false_iff]
        simpa using critical
      have still : (decide (core.acAdapterState ≠ Plugged) && decide (current ≤ settings.batteryCriticalLevel) &&
          decide (settings.batteryCriticalLevel < previous) && Core.starts settings) = false := by
        rw [Bool.and_assoc (decide (core.acAdapterState ≠ Plugged)),quiet]
        simp
      rw [still]
      simp only [plugged,critical,if_false]
      split <;> simp

theorem emit_snd (settings : PowerDevilSettings) (core : Core) {current previous : Int}
    (off : core.acAdapterState ≠ Plugged) (down : current ≤ settings.batteryLowLevel)
    (high : settings.batteryLowLevel < previous) :
    (core.emitBatteryChargePercentNotification settings current previous).2 = true := by
  unfold Core.emitBatteryChargePercentNotification
  rw [if_neg off]
  split
  · rfl
  · rw [if_pos ⟨down,high⟩]

def Core.withBattery (settings : PowerDevilSettings) (core : Core) (udi : String) (percent : Int)
    (charged : List (String × Bool)) : Core :=
  let percents := insert core.m_batteriesPercent udi percent
  { core with
    m_batteriesPercent := percents
    m_batteriesCharged := charged
    m_loadedBatteriesUdi := core.m_loadedBatteriesUdi++[udi]
    m_criticalBatteryTimer :=
      core.m_criticalBatteryTimer && decide (globalPercent percents ≤ settings.batteryCriticalLevel) ||
        alarms settings core 100 (globalPercent percents) }

theorem added_eq (settings : PowerDevilSettings) {udi : String} {device : Option Battery} {percent : Int}
    (adds : Adds core udi device percent) :
    ∃ charged, core.onDeviceAdded settings udi device = core.withBattery settings udi percent charged := by
  obtain ⟨unknown,b,rfl,type,supply,rfl⟩ := adds
  refine ⟨insert core.m_batteriesCharged udi b.noCharge,?_⟩
  have kind : ¬(b.type ≠ .PrimaryBattery ∧ b.type ≠ .UpsBattery) := by
    rcases type with type | type <;> simp [type]
  unfold Core.onDeviceAdded Core.withBattery
  simp only [unknown,if_false,kind,supply,Bool.not_true,Bool.false_eq_true]
  rw [emit_fst]
  by_cases high : globalPercent (insert core.m_batteriesPercent udi b.chargePercent) > settings.batteryCriticalLevel
  · have low : ¬globalPercent (insert core.m_batteriesPercent udi b.chargePercent) ≤ settings.batteryCriticalLevel := by
      omega
    cases core.m_criticalBatteryTimer <;> simp [high,low,alarms]
  · have low : globalPercent (insert core.m_batteriesPercent udi b.chargePercent) ≤ settings.batteryCriticalLevel := by
      omega
    cases core.m_criticalBatteryTimer <;> simp [high,low,alarms]

theorem added_none (settings : PowerDevilSettings) {udi : String} {device : Option Battery}
    (none_ : ∀ percent, ¬Adds core udi device percent) : core.onDeviceAdded settings udi device = core := by
  unfold Core.onDeviceAdded
  split
  · rfl
  · rename_i unknown
    cases device with
    | none => rfl
    | some b =>
      dsimp only
      split
      · rfl
      · rename_i kind
        split
        · rfl
        · rename_i supply
          refine absurd ⟨unknown,b,rfl,?_,by simpa using supply,rfl⟩ (none_ b.chargePercent)
          by_contra neither
          push Not at neither
          exact kind neither

theorem adds_unique {udi : String} {device : Option Battery} {one two : Int}
    (first : Adds core udi device one) (second : Adds core udi device two) : one = two := by
  obtain ⟨_,b,rfl,_,_,rfl⟩ := first
  obtain ⟨_,b',same,_,_,rfl⟩ := second
  cases same
  rfl

theorem unknown_of_off {state : AcAdapterState} (off : state ≠ Plugged) (not_ : state ≠ Unplugged) :
    state = UnknownAcAdapterState := by
  cases state <;> simp_all

theorem right_added_iff (right : Right settings core) (udi : String) (device : Option Battery) :
    Right settings (core.onDeviceAdded settings udi device) ↔ Noticed settings core (.deviceAdded udi device) := by
  by_cases adds : ∃ percent, Adds core udi device percent
  · obtain ⟨percent,adds⟩ := adds
    obtain ⟨charged,same⟩ := added_eq settings adds
    have state : (core.withBattery settings udi percent charged).acAdapterState = core.acAdapterState := rfl
    rw [same,right_same_iff right state rfl,profileFor_eq_iff state]
    constructor
    · rintro ⟨profile,timer⟩ other adds' off
      obtain rfl := adds_unique adds adds'
      obtain ⟨both,side⟩ := profile off
      have loaded : core.m_loadedBatteriesUdi ≠ [] := fun none_ => by simpa [Core.withBattery] using both.mp none_
      refine ⟨loaded,side loaded,fun unknown alarm => ?_⟩
      have started : (core.withBattery settings udi percent charged).m_criticalBatteryTimer = true := by
        simp only [Core.withBattery,Bool.or_eq_true]
        exact .inr (alarms_iff.mpr ⟨off,alarm⟩)
      simpa [unknown] using (timer started).1
    · intro noticed
      have noticed := noticed percent adds
      refine ⟨fun off => ?_,fun running => ?_⟩
      · obtain ⟨loaded,side,_⟩ := noticed off
        exact ⟨by simp [loaded,Core.withBattery],fun _ => side⟩
      · simp only [Core.withBattery,Bool.or_eq_true,Bool.and_eq_true,decide_eq_true_eq] at running
        rcases running with ⟨running,low⟩ | started
        · exact ⟨(right.timer running).1,low⟩
        · obtain ⟨off,alarm⟩ := alarms_iff.mp started
          refine ⟨?_,alarm.1⟩
          by_contra not_
          exact (noticed off).2.2 (unknown_of_off off not_) alarm
  · have none_ : ∀ percent, ¬Adds core udi device percent := by simpa using adds
    rw [added_none settings none_]
    exact iff_of_true right fun percent adds => absurd adds (none_ percent)

def Core.withoutBattery (core : Core) (udi : String) : Core := { core with
  m_batteriesPercent := remove core.m_batteriesPercent udi
  m_batteriesCharged := remove core.m_batteriesCharged udi
  m_loadedBatteriesUdi := core.m_loadedBatteriesUdi.erase udi }

theorem right_removed_iff (right : Right settings core) (udi : String) :
    Right settings (core.onDeviceRemoved udi) ↔ Noticed settings core (.deviceRemoved udi) := by
  by_cases known : udi ∈ core.m_loadedBatteriesUdi
  · have loaded : core.m_loadedBatteriesUdi ≠ [] := ne_nil_of_mem known
    have last : (core.withoutBattery udi).m_loadedBatteriesUdi = [] ↔ core.m_loadedBatteriesUdi = [udi] := by
      rw [Core.withoutBattery,erase_eq_nil_iff]
      simp [loaded]
    have same : core.onDeviceRemoved udi = core.withoutBattery udi := by
      rw [Core.onDeviceRemoved,if_neg (by simpa using known),Core.withoutBattery]
    have state : (core.withoutBattery udi).acAdapterState = core.acAdapterState := rfl
    rw [same,right_same_iff right state rfl,profileFor_eq_iff state]
    simp only [loaded,false_iff,ne_eq,not_false_eq_true,forall_const,last]
    constructor
    · rintro ⟨profile,timer⟩ _
      exact ⟨profile,fun running => (timer running).2⟩
    · intro noticed
      obtain ⟨profile,timer⟩ := noticed known
      exact ⟨profile,fun running => ⟨(right.timer running).1,timer running⟩⟩
  · rw [Core.onDeviceRemoved,if_pos known]
    exact iff_of_true right fun known' => absurd known' known

theorem loadProfile_right (timer : core.m_criticalBatteryTimer = true →
    core.acAdapterState = Unplugged ∧ core.percent ≤ settings.batteryCriticalLevel) :
    Right settings (core.loadProfile settings) := by
  rw [loadProfile_eq]
  exact ⟨rfl,timer⟩

theorem right_adapter_iff (right : Right settings core) (state : AcAdapterState) :
    Right settings (core.onAcAdapterStateChanged settings state) ↔
      Noticed settings core (.acAdapterStateChanged state) := by
  unfold Core.onAcAdapterStateChanged
  rw [loadProfile_eq]
  cases state with
  | Plugged => exact iff_of_true ⟨rfl,by simp⟩ (by simp [Noticed])
  | Unplugged => exact iff_of_true ⟨rfl,fun running => ⟨rfl,(right.timer running).2⟩⟩ (by simp [Noticed])
  | UnknownAcAdapterState =>
    constructor
    · intro after _
      rw [Bool.eq_false_iff]
      intro running
      simpa using (after.timer running).1
    · intro noticed
      have still : core.m_criticalBatteryTimer = false := noticed rfl
      exact ⟨rfl,fun running => by simp [still] at running⟩

/-- The core with another charge of a battery, which is told if it has come down. -/
def Core.withCharge (settings : PowerDevilSettings) (core : Core) (percent : Int) (udi : String) : Core :=
  let percents := insert core.m_batteriesPercent udi percent
  { core with
    m_batteriesPercent := percents
    m_criticalBatteryTimer := core.m_criticalBatteryTimer ||
      decide (globalPercent percents < core.percent) && alarms settings core core.percent (globalPercent percents) }

theorem charged_eq (settings : PowerDevilSettings) (keyed : Keyed core) (percent : Int) (udi : String) :
    core.onBatteryChargePercentChanged settings percent udi = (core.withCharge settings percent udi).loadProfile settings ∧
      globalPercent (insert core.m_batteriesPercent udi percent) < core.percent ∨
    core.onBatteryChargePercentChanged settings percent udi = core.withCharge settings percent udi ∧
      (core.acAdapterState = Plugged ∨ core.percent ≤ globalPercent (insert core.m_batteriesPercent udi percent) ∨
        ¬(globalPercent (insert core.m_batteriesPercent udi percent) ≤ settings.batteryLowLevel ∧
          settings.batteryLowLevel < core.percent)) := by
  unfold Core.onBatteryChargePercentChanged
  simp only [currentPercent_eq keyed]
  by_cases down : globalPercent (insert core.m_batteriesPercent udi percent) < globalPercent core.m_batteriesPercent
  · rw [if_pos down]
    have fst := emit_fst settings { core with m_batteriesPercent := insert core.m_batteriesPercent udi percent }
      (globalPercent (insert core.m_batteriesPercent udi percent)) (globalPercent core.m_batteriesPercent)
    have same : (Core.emitBatteryChargePercentNotification settings
        { core with m_batteriesPercent := insert core.m_batteriesPercent udi percent }
        (globalPercent (insert core.m_batteriesPercent udi percent)) (globalPercent core.m_batteriesPercent)).1 =
        core.withCharge settings percent udi := by
      rw [fst,Core.withCharge]
      simp only [Core.percent,down,decide_true,Bool.true_and]
      rfl
    by_cases told : (Core.emitBatteryChargePercentNotification settings
        { core with m_batteriesPercent := insert core.m_batteriesPercent udi percent }
        (globalPercent (insert core.m_batteriesPercent udi percent)) (globalPercent core.m_batteriesPercent)).2 = true
    · refine .inl ⟨?_,down⟩
      rw [if_pos told,same]
    · refine .inr ⟨by rw [if_neg told,same],?_⟩
      by_contra crossing
      push Not at crossing
      exact told (emit_snd settings _ crossing.1 crossing.2.2.1 crossing.2.2.2)
  · refine .inr ⟨?_,.inr (.inl (by simpa [Core.percent] using down))⟩
    rw [if_neg down]
    simp [Core.withCharge,Core.percent,down]

theorem right_charged_iff (right : Right settings core)
    (keyed : Keyed core) (percent : Int) {udi : String} (known : udi ∈ core.m_loadedBatteriesUdi) :
    Right settings (core.onBatteryChargePercentChanged settings percent udi) ↔
      Noticed settings core (.chargePercentChanged percent udi) := by
  have loaded : core.m_loadedBatteriesUdi ≠ [] := ne_nil_of_mem known
  have state : (core.withCharge settings percent udi).acAdapterState = core.acAdapterState := rfl
  -- the timer is as it should be unless the charge rises under it or the adapter is not known
  have timer : ((core.withCharge settings percent udi).m_criticalBatteryTimer = true →
      core.acAdapterState = Unplugged ∧ (core.withCharge settings percent udi).percent ≤ settings.batteryCriticalLevel) ↔
      (core.acAdapterState ≠ Plugged →
        (core.m_criticalBatteryTimer = true →
          globalPercent (insert core.m_batteriesPercent udi percent) ≤ settings.batteryCriticalLevel) ∧
        (core.acAdapterState = UnknownAcAdapterState →
          ¬Alarms settings core.percent (globalPercent (insert core.m_batteriesPercent udi percent)))) := by
    simp only [Core.withCharge,Bool.or_eq_true,Bool.and_eq_true,decide_eq_true_eq,alarms_iff]
    constructor
    · intro after off
      refine ⟨fun running => (after (.inl running)).2,fun unknown alarm => ?_⟩
      have down : globalPercent (insert core.m_batteriesPercent udi percent) < core.percent :=
        Int.lt_of_le_of_lt alarm.1 alarm.2.1
      simpa [unknown] using (after (.inr ⟨down,off,alarm⟩)).1
    · intro noticed running
      rcases running with running | ⟨_,off,alarm⟩
      · have unplugged := (right.timer running).1
        exact ⟨unplugged,(noticed (by simp [unplugged])).1 running⟩
      · refine ⟨?_,alarm.1⟩
        by_contra not_
        exact (noticed off).2 (unknown_of_off off not_) alarm
  rcases charged_eq settings keyed percent udi with ⟨same,down⟩ | ⟨same,quiet⟩
  · have reloaded : Right settings ((core.withCharge settings percent udi).loadProfile settings) ↔
        ((core.withCharge settings percent udi).m_criticalBatteryTimer = true → core.acAdapterState = Unplugged ∧
          (core.withCharge settings percent udi).percent ≤ settings.batteryCriticalLevel) := by
      refine ⟨fun after => ?_,loadProfile_right⟩
      have running := after.timer
      rw [loadProfile_eq] at running
      exact running
    rw [same,reloaded,timer]
    constructor
    · exact fun noticed _ off => ⟨fun low => Int.le_trans (Int.le_of_lt down) low,(noticed off).1,(noticed off).2⟩
    · exact fun noticed off => ⟨(noticed known off).2.1,(noticed known off).2.2⟩
  · have percent_eq : (core.withCharge settings percent udi).percent =
      globalPercent (insert core.m_batteriesPercent udi percent) := rfl
    have loaded_eq : (core.withCharge settings percent udi).m_loadedBatteriesUdi = core.m_loadedBatteriesUdi := rfl
    rw [same,right_same_iff right state rfl,profileFor_eq_iff state,timer,percent_eq,loaded_eq]
    constructor
    · rintro ⟨profile,running⟩ _ off
      exact ⟨((profile off).2 loaded).mp,(running off).1,(running off).2⟩
    · intro noticed
      have noticed := noticed known
      refine ⟨fun off => ⟨Iff.rfl,fun _ => ⟨(noticed off).1,fun low => ?_⟩⟩,
        fun off => ⟨(noticed off).2.1,(noticed off).2.2⟩⟩
      rcases quiet with plugged | up | still
      · exact absurd plugged off
      · omega
      · by_contra high
        exact still ⟨low,by omega⟩

theorem right_chargeState (right : Right settings core)
    (noCharge : Bool) (udi : String) : Right settings (core.onBatteryChargeStateChanged settings noCharge udi) := by
  have same : Right settings { core with m_batteriesCharged := insert core.m_batteriesCharged udi noCharge } :=
    ⟨right.profile,right.timer⟩
  unfold Core.onBatteryChargeStateChanged
  dsimp only
  split
  · exact same
  · split
    · exact loadProfile_right same.timer
    · exact same

theorem right_step_iff (right : Right settings core) (keyed : Keyed core)
    (event : Event) : Right settings (core.step settings event) ↔ Noticed settings core event := by
  cases event with
  | deviceAdded udi device => exact right_added_iff right udi device
  | deviceRemoved udi => exact right_removed_iff right udi
  | acAdapterStateChanged state => exact right_adapter_iff right state
  | chargePercentChanged percent udi =>
    rw [Core.step]
    split
    · rename_i known
      exact right_charged_iff right keyed percent known
    · rename_i unknown
      exact iff_of_true right fun known => absurd known unknown
  | chargeStateChanged noCharge udi =>
    rw [Core.step]
    refine iff_of_true ?_ trivial
    split
    · exact right_chargeState right noCharge udi
    · exact right
  | criticalBatteryTimerExpired => exact iff_of_true ⟨right.profile,by simp [Core.step]⟩ trivial

theorem loadProfile_keyed (keyed : Keyed core) : Keyed (core.loadProfile settings) := by
  rw [loadProfile_eq]
  exact keyed

theorem added_keyed (keyed : Keyed core) (udi : String)
    (device : Option Battery) : Keyed (core.onDeviceAdded settings udi device) := by
  by_cases adds : ∃ percent, Adds core udi device percent
  · obtain ⟨percent,adds⟩ := adds
    obtain ⟨charged,same⟩ := added_eq settings adds
    rw [same]
    exact insert_nodup keyed udi percent
  · rw [added_none settings (by simpa using adds)]
    exact keyed

theorem keyed_step (keyed : Keyed core) (event : Event) : Keyed (core.step settings event) := by
  cases event with
  | deviceAdded udi device => exact added_keyed keyed udi device
  | deviceRemoved udi =>
    rw [Core.step,Core.onDeviceRemoved]
    split
    · exact keyed
    · exact remove_nodup keyed udi
  | acAdapterStateChanged state =>
    have loaded : Keyed (Core.loadProfile settings { core with acAdapterState := state }) := loadProfile_keyed keyed
    rw [Core.step,Core.onAcAdapterStateChanged]
    split <;> exact loaded
  | chargePercentChanged percent udi =>
    rw [Core.step]
    split
    · have charged : Keyed (core.withCharge settings percent udi) := insert_nodup keyed udi percent
      rcases charged_eq settings keyed percent udi with ⟨same,_⟩ | ⟨same,_⟩
      · rw [same]
        exact loadProfile_keyed charged
      · rw [same]
        exact charged
    · exact keyed
  | chargeStateChanged noCharge udi =>
    have same : Keyed { core with m_batteriesCharged := insert core.m_batteriesCharged udi noCharge } := keyed
    rw [Core.step]
    split
    · rw [Core.onBatteryChargeStateChanged]
      dsimp only
      split
      · exact same
      · split
        · exact loadProfile_keyed same
        · exact same
    · exact keyed
  | criticalBatteryTimerExpired => exact keyed

theorem ready_right {state : AcAdapterState} (known : state ≠ UnknownAcAdapterState)
    (devices : List (String × Option Battery)) :
    Right settings (Core.ready settings state devices) ∧ Keyed (Core.ready settings state devices) := by
  have added : ∀ core : Core, core.acAdapterState = state → Keyed core →
      (core.m_criticalBatteryTimer = true →
        core.acAdapterState = Unplugged ∧ core.percent ≤ settings.batteryCriticalLevel) →
      ∀ core', core' = devices.foldl (fun (core : Core) device => core.onDeviceAdded settings device.1 device.2) core →
      Keyed core' ∧ (core'.m_criticalBatteryTimer = true →
        core'.acAdapterState = Unplugged ∧ core'.percent ≤ settings.batteryCriticalLevel) := by
    induction devices with
    | nil =>
      rintro core _ keyed timer core' rfl
      exact ⟨keyed,timer⟩
    | cons device devices ih =>
      rintro core adapter keyed timer core' rfl
      refine ih (core.onDeviceAdded settings device.1 device.2) ?_ (added_keyed keyed _ _) ?_ _ rfl
      all_goals by_cases adds : ∃ percent, Adds core device.1 device.2 percent
      · obtain ⟨percent,adds⟩ := adds
        obtain ⟨charged,same⟩ := added_eq settings adds
        rw [same]
        exact adapter
      · rw [added_none settings (by simpa using adds)]
        exact adapter
      · obtain ⟨percent,adds⟩ := adds
        obtain ⟨charged,same⟩ := added_eq settings adds
        rw [same]
        intro running
        simp only [Core.withBattery,Bool.or_eq_true,Bool.and_eq_true,decide_eq_true_eq] at running
        rcases running with ⟨running,low⟩ | started
        · exact ⟨(timer running).1,low⟩
        · obtain ⟨off,alarm⟩ := alarms_iff.mp started
          refine ⟨?_,alarm.1⟩
          by_contra not_
          exact known (adapter ▸ unknown_of_off off not_)
      · rw [added_none settings (by simpa using adds)]
        exact timer
  obtain ⟨keyed,timer⟩ := added ⟨state,[],[],[],false,none⟩ rfl nodup_nil (by simp) _ rfl
  exact ⟨loadProfile_right timer,loadProfile_keyed keyed⟩

def AllNoticed (settings : PowerDevilSettings) : Core → List Event → Prop
  | _, [] => True
  | core, event :: events => Noticed settings core event ∧ AllNoticed settings (core.step settings event) events

theorem right_run_iff (right : Right settings core) (keyed : Keyed core) (events : List Event) :
    (∀ before, before <+: events → Right settings (before.foldl (Core.step settings) core)) ↔
      AllNoticed settings core events := by
  induction events generalizing core with
  | nil =>
    refine iff_of_true (fun before pre => ?_) trivial
    rw [prefix_nil.mp pre]
    exact right
  | cons event events ih =>
    constructor
    · intro always
      have next : Right settings (core.step settings event) := always [event] (by simp)
      refine ⟨(right_step_iff right keyed event).mp next,(ih next (keyed_step keyed event)).mp fun before pre => ?_⟩
      exact always (event :: before) (by simpa using pre)
    · rintro ⟨noticed,rest⟩ before pre
      have next := (right_step_iff right keyed event).mpr noticed
      cases before with
      | nil => exact right
      | cons first before =>
        obtain ⟨rfl,rest_⟩ := cons_prefix_cons.mp pre
        exact (ih next (keyed_step keyed _)).mpr rest before rest_

/-- From the time when the core is ready, the profile and the timer are right after each event, just as long as
nothing happens to the charge which the core does not notice. -/
theorem right_iff {settings : PowerDevilSettings} {state : AcAdapterState} (known : state ≠ UnknownAcAdapterState)
    (devices : List (String × Option Battery)) (events : List Event) :
    (∀ before, before <+: events →
        Right settings (before.foldl (Core.step settings) (Core.ready settings state devices))) ↔
      AllNoticed settings (Core.ready settings state devices) events :=
  right_run_iff (ready_right known devices).1 (ready_right known devices).2 events

def levels : PowerDevilSettings := ⟨10,5,.ToDiskMode⟩

def battery (percent : Int) : Option Battery := some ⟨.PrimaryBattery,true,percent,false⟩

/-- The battery of a laptop runs down to its low level. -/
theorem right_low : Unplugged ≠ UnknownAcAdapterState ∧
    ∀ before, before <+: [Event.chargePercentChanged 9 "bat0"] →
      Right levels (before.foldl (Core.step levels) (Core.ready levels Unplugged [("bat0",battery 40)])) := by
  refine ⟨by decide,(right_iff (by decide) [("bat0",battery 40)] _).mpr ⟨fun _ _ => ?_,trivial⟩⟩
  exact ⟨by decide,by decide,fun unknown => absurd unknown (by decide)⟩

/-- One of two batteries is taken out, and the other one is low. -/
theorem swapped_kept : ¬∀ before, before <+: [Event.deviceRemoved "bat1"] →
    Right levels (before.foldl (Core.step levels)
      (Core.ready levels Unplugged [("bat0",battery 8),("bat1",battery 60)])) := by
  intro always
  have profile := (always [.deviceRemoved "bat1"] (by simp)).profile
  revert profile
  decide

end KdeWorkspace.PowerProfiles
