import KdeWorkspace.Xdmcp

/-!
The identity of sessions. A session starts at most one display, and only after its ID was sent in
an ACCEPT packet. A MANAGE that comes twice is recognised only while no further session of its display
waits and no later display of the same sender is in the list; with that, no session of a listed display
is refused (`run_identity`).
-/
namespace KdeWorkspace.XdmcpSessions
open Xdmcp Xdmcp.Manager List
open Or (inl inr)

def protoIDs (s : Manager) : List Nat := s.protoDisplays.map (·.sessionID)

def acceptedIDs (replies : List Reply) : List Nat :=
  replies.filterMap fun reply =>
    match reply with
    | .accept _ sessionID _ _ _ _ => some sessionID
    | _ => none

def startedIDs (replies : List Reply) : List Nat :=
  replies.filterMap fun reply =>
    match reply with
    | .newDisplay d => some d.sessionID
    | _ => none

theorem acceptedIDs_append (past replies : List Reply) :
    acceptedIDs (past ++ replies) = acceptedIDs past ++ acceptedIDs replies := filterMap_append

theorem startedIDs_append (past replies : List Reply) :
    startedIDs (past ++ replies) = startedIDs past ++ startedIDs replies := filterMap_append

private theorem answerRequest_ids {s : Manager} {p : ProtoDisplay} {r : Request}
    (found : s.findProtoDisplay r.sender = some p) :
    (s.answerRequest p r).1.globalSessionID = s.globalSessionID ∧ startedIDs (s.answerRequest p r).2 = [] ∧
      ((s.answerRequest p r).1.displays = s.displays) ∧
      ∃ front rest, protoIDs s = front ++ p.sessionID :: rest ∧
        (protoIDs (s.answerRequest p r).1 = front ++ rest ∧
            (s.answerRequest p r).1 = s.disposeProtoDisplay r.sender ∨
          protoIDs (s.answerRequest p r).1 = front ++ p.sessionID :: rest ∧
            acceptedIDs (s.answerRequest p r).2 = [p.sessionID]) := by
  obtain ⟨front,rest,split,ours,-,disposed,set⟩ := findProtoDisplay_split found
  unfold answerRequest
  cases r.authorizationIndex with
  | none =>
    refine ⟨rfl,rfl,rfl,front.map (·.sessionID),rest.map (·.sessionID),?_,inl ⟨?_,rfl⟩⟩
    · simp [protoIDs,split]
    · simp [protoIDs,disposed]
  | some j =>
    obtain ⟨sender,id⟩ := authorize_sender p r j
    refine ⟨rfl,rfl,rfl,front.map (·.sessionID),rest.map (·.sessionID),?_,inr ⟨?_,?_⟩⟩
    · simp [protoIDs,split]
    · simp [protoIDs,set _ (sender.trans ours),id]
    · simp [acceptedIDs,id]

theorem request_respond_ids (s : Manager) (r : Request) :
    startedIDs (s.request_respond r).2 = [] ∧ (s.request_respond r).1.displays = s.displays ∧
      (((s.request_respond r).1.globalSessionID = s.globalSessionID ∧
          (protoIDs (s.request_respond r).1).Sublist (protoIDs s)) ∨
        (s.request_respond r).1.globalSessionID = s.globalSessionID+1 ∧
          (protoIDs (s.request_respond r).1).Sublist (s.nextSessionID :: protoIDs s)) ∧
      ∀ id ∈ protoIDs (s.request_respond r).1, id ∈ protoIDs s ∨ id ∈ acceptedIDs (s.request_respond r).2 := by
  have unchanged : ∀ replies : List Reply, startedIDs replies = [] →
      startedIDs (s,replies).2 = [] ∧ (s,replies).1.displays = s.displays ∧
        (((s,replies).1.globalSessionID = s.globalSessionID ∧ (protoIDs (s,replies).1).Sublist (protoIDs s)) ∨
          (s,replies).1.globalSessionID = s.globalSessionID+1 ∧
            (protoIDs (s,replies).1).Sublist (s.nextSessionID :: protoIDs s)) ∧
        ∀ id ∈ protoIDs (s,replies).1, id ∈ protoIDs s ∨ id ∈ acceptedIDs (s,replies).2 :=
    fun replies none' => ⟨none',rfl,inl ⟨rfl,List.Sublist.refl _⟩,fun id here => inl here⟩
  unfold request_respond
  split_ifs
  · exact unchanged [] rfl
  · exact unchanged _ rfl
  · cases found : s.findProtoDisplay r.sender with
    | some p =>
      obtain ⟨counter,silent,same,front,rest,split,after⟩ := answerRequest_ids (r := r) found
      refine ⟨silent,same,inl ⟨counter,?_⟩,?_⟩
      · rw [split]
        rcases after with ⟨gone,-⟩ | ⟨kept,-⟩
        · rw [gone]
          exact (sublist_cons_self _ _).append_left front
        · rw [kept]
      · intro id here
        apply inl
        rw [split]
        rcases after with ⟨gone,-⟩ | ⟨kept,-⟩
        · rw [gone] at here
          exact (List.Sublist.subset ((sublist_cons_self _ _).append_left front)) here
        · rwa [kept] at here
    | none =>
      dsimp only
      cases selectConnectionTypeIndex r.connectionTypes with
      | none => exact unchanged _ rfl
      | some i =>
        have first : (s.addProtoDisplay r i).findProtoDisplay r.sender = some (s.newProtoDisplay r i) :=
          find?_cons_of_pos (by simp [newProtoDisplay])
        have opened : protoIDs (s.addProtoDisplay r i) =
            s.nextSessionID :: (s.timeoutProtoDisplays r.now).protoDisplays.map (·.sessionID) := rfl
        have kept : ((s.timeoutProtoDisplays r.now).protoDisplays.map (·.sessionID)).Sublist (protoIDs s) :=
          filter_sublist.map _
        obtain ⟨counter,silent,same,front,rest,split,after⟩ := answerRequest_ids first
        have within : (protoIDs (s.addProtoDisplay r i)).Sublist (s.nextSessionID :: protoIDs s) := by
          rw [opened]
          exact kept.cons_cons _
        dsimp only
        refine ⟨silent,same,inr ⟨counter,?_⟩,?_⟩
        · rcases after with ⟨gone,-⟩ | ⟨same',-⟩
          · rw [gone]
            apply List.Sublist.trans ((sublist_cons_self (s.newProtoDisplay r i).sessionID rest).append_left front)
            rw [← split]
            exact within
          · rw [same',← split]
            exact within
        · intro id here
          rcases after with ⟨-,disposed⟩ | ⟨same',accepted⟩
          · apply inl
            apply kept.subset
            have head : ((s.addProtoDisplay r i).disposeProtoDisplay r.sender).protoDisplays =
                (s.timeoutProtoDisplays r.now).protoDisplays := by
              unfold disposeProtoDisplay addProtoDisplay
              dsimp only
              rw [eraseP_cons_of_pos]
              simp [newProtoDisplay]
            rw [disposed,protoIDs,head] at here
            exact here
          · rw [same',← split,opened] at here
            rcases mem_cons.mp here with new | old
            · apply inr
              rw [accepted,new]
              exact mem_singleton_self _
            · exact inl (kept.subset old)

section
variable (networkAddressToName : Nat → Bytes → Sender → String)

theorem manage_ids (s : Manager) (m : Manage) :
    (s.manage networkAddressToName m).1.globalSessionID = s.globalSessionID ∧
      (protoIDs (s.manage networkAddressToName m).1 = protoIDs s ∧ startedIDs (s.manage networkAddressToName m).2 = [] ∨
        ∃ front id rest, protoIDs s = front ++ id :: rest ∧
          protoIDs (s.manage networkAddressToName m).1 = front ++ rest ∧
          startedIDs (s.manage networkAddressToName m).2 = [id]) := by
  unfold Manager.manage
  split
  · exact ⟨rfl,inl ⟨rfl,rfl⟩⟩
  · cases found : s.findProtoDisplay m.sender with
    | none =>
      dsimp only
      split
      · split
        · exact ⟨rfl,inl ⟨rfl,rfl⟩⟩
        · exact ⟨rfl,inl ⟨rfl,rfl⟩⟩
      · exact ⟨rfl,inl ⟨rfl,rfl⟩⟩
    | some p =>
      dsimp only
      split
      · exact ⟨rfl,inl ⟨rfl,rfl⟩⟩
      · obtain ⟨front,rest,split,-,-,disposed,-⟩ := findProtoDisplay_split found
        refine ⟨rfl,inr ⟨front.map (·.sessionID),p.sessionID,rest.map (·.sessionID),?_,?_,rfl⟩⟩
        · simp [protoIDs,split]
        · have same : (s.disposeProtoDisplay m.sender).protoDisplays = s.protoDisplays.eraseP (·.sender == m.sender) := rfl
          rw [same] at disposed
          simp [protoIDs,disposeProtoDisplay,disposed]

/-- The sessions that wait and the displays that were started come from different requests. -/
structure Distinct (first : Nat) (s : Manager) (past : List Reply) : Prop where
  first_le : first ≤ s.globalSessionID
  counted : ∀ id ∈ protoIDs s ++ startedIDs past, ∃ k, first < k ∧ k ≤ s.globalSessionID ∧ id = k%2^32
  nodup : (protoIDs s ++ startedIDs past).Nodup
  accepted : ∀ id ∈ protoIDs s, id ∈ acceptedIDs past

variable {past : List Reply} {s : Manager} {first : Nat}

private theorem Distinct.request (distinct : Distinct first s past)
    (r : Request) (few : s.globalSessionID < first+2^32) :
    Distinct first (s.request_respond r).1 (past ++ (s.request_respond r).2) := by
  obtain ⟨silent,-,ids,accepted⟩ := request_respond_ids s r
  have started : startedIDs (past ++ (s.request_respond r).2) = startedIDs past := by
    rw [startedIDs_append,silent,append_nil]
  have new : s.nextSessionID ∉ protoIDs s ++ startedIDs past := by
    intro old
    obtain ⟨k,after,upto,same⟩ := distinct.counted _ old
    unfold nextSessionID at same
    omega
  refine ⟨?_,?_,?_,?_⟩
  · have := distinct.first_le
    rcases ids with ⟨counter,-⟩ | ⟨counter,-⟩
    · omega
    · omega
  · rw [started]
    intro id here
    rcases ids with ⟨counter,within⟩ | ⟨counter,within⟩
    · obtain ⟨k,after,upto,same⟩ := distinct.counted id ((within.append_right _).subset here)
      exact ⟨k,after,by omega,same⟩
    · rcases mem_cons.mp ((within.append_right _).subset here) with next | old
      · exact ⟨s.globalSessionID+1,Nat.lt_succ_of_le distinct.first_le,by omega,next⟩
      · obtain ⟨k,after,upto,same⟩ := distinct.counted id old
        exact ⟨k,after,by omega,same⟩
  · rw [started]
    rcases ids with ⟨-,within⟩ | ⟨-,within⟩
    · exact distinct.nodup.sublist (within.append_right _)
    · exact (nodup_cons.mpr ⟨new,distinct.nodup⟩).sublist (within.append_right _)
  · intro id here
    rw [acceptedIDs_append,mem_append]
    exact (accepted id here).imp (distinct.accepted id) fun before => before

private theorem Distinct.manage (distinct : Distinct first s past) (m : Manage) :
    Distinct first (s.manage networkAddressToName m).1 (past ++ (s.manage networkAddressToName m).2) := by
  obtain ⟨counter,⟨same,silent⟩ | ⟨front,id,rest,split,after,started⟩⟩ := manage_ids networkAddressToName s m
  · refine ⟨counter ▸ distinct.first_le,?_,?_,?_⟩
    · rw [startedIDs_append,silent,append_nil,same,counter]
      exact distinct.counted
    · rw [startedIDs_append,silent,append_nil,same]
      exact distinct.nodup
    · intro id here
      rw [same] at here
      rw [acceptedIDs_append]
      exact mem_append_left _ (distinct.accepted id here)
  · have moved : ((front ++ rest) ++ (startedIDs past ++ [id])).Perm ((front ++ id :: rest) ++ startedIDs past) := by
      rw [append_assoc,append_assoc]
      apply List.Perm.append_left
      rw [← append_assoc]
      exact perm_append_singleton id (rest ++ startedIDs past)
    refine ⟨counter ▸ distinct.first_le,?_,?_,?_⟩
    · intro id' here
      rw [after,startedIDs_append,started] at here
      rw [counter]
      apply distinct.counted
      rw [split]
      exact moved.mem_iff.mp here
    · rw [after,startedIDs_append,started]
      apply moved.nodup_iff.mpr
      rw [← split]
      exact distinct.nodup
    · intro id' here
      rw [after] at here
      rw [acceptedIDs_append]
      apply mem_append_left
      apply distinct.accepted
      rw [split]
      exact ((sublist_cons_self id rest).append_left front).subset here

/-- How many requests there are. -/
def requests : List Event → Nat
  | [] => 0
  | .request _ :: rest => requests rest+1
  | _ :: rest => requests rest

/-- A MANAGE with the ID of a listed display of its sender comes while no further session of the sender waits
    and no later display of the sender is in the list. -/
def Recognised (s : Manager) : Event → Prop
  | .manage m => ∀ d ∈ s.displays, d.fromXDMCP → d.sender = m.sender → d.sessionID = m.sessionID →
      s.findProtoDisplay m.sender = none ∧
        ∀ latest, s.findDisplayByAddress m.sender = some latest → latest.sessionID = m.sessionID
  | _ => True

def AllRecognised (s : Manager) : List Event → Prop
  | [] => True
  | event :: rest => Recognised s event ∧ AllRecognised (s.step networkAddressToName event).1 rest

private theorem request_refuses_nothing (s : Manager) (r : Request) (sender : Sender) (id : Nat) :
    .refuse sender id ∉ (s.request_respond r).2 := by
  have answer : ∀ (s : Manager) (p : ProtoDisplay), .refuse sender id ∉ (s.answerRequest p r).2 := by
    intro s p
    unfold answerRequest
    split
    · simp
    · simp
  unfold request_respond
  split_ifs
  · simp
  · simp
  · split
    · exact answer _ _
    · split
      · simp
      · exact answer _ _

private theorem manage_refuses {m : Manage} {sender : Sender} {id : Nat}
    (refused : .refuse sender id ∈ (s.manage networkAddressToName m).2) :
    sender = m.sender ∧ id = m.sessionID ∧
      ((∃ p, s.findProtoDisplay m.sender = some p) ∨
        ∀ latest, s.findDisplayByAddress m.sender = some latest → latest.sessionID ≠ m.sessionID) := by
  unfold Manager.manage at refused
  split at refused
  · cases refused
  · split at refused
    · split at refused
      · rename_i latest here
        split at refused
        · cases refused
        · rename_i other
          rw [mem_singleton,Reply.refuse.injEq] at refused
          refine ⟨refused.1,refused.2,inr ?_⟩
          intro latest' same
          rw [here] at same
          cases same
          exact other
      · rename_i nowhere
        rw [mem_singleton,Reply.refuse.injEq] at refused
        refine ⟨refused.1,refused.2,inr ?_⟩
        intro latest same
        rw [nowhere] at same
        cases same
    · rename_i p found
      split at refused
      · rw [mem_singleton,Reply.refuse.injEq] at refused
        exact ⟨refused.1,refused.2,inl ⟨p,found⟩⟩
      · simp at refused

theorem step_not_refused {event : Event} (recognised : Recognised s event) {sender : Sender} {id : Nat}
    (refused : .refuse sender id ∈ (s.step networkAddressToName event).2) :
    ∀ d ∈ s.displays, d.fromXDMCP → d.sender = sender → d.sessionID ≠ id := by
  cases event with
  | request r => exact absurd refused (request_refuses_nothing s r sender id)
  | manage m =>
    obtain ⟨theirs,asked,why⟩ := manage_refuses networkAddressToName refused
    intro d listed origin ours same
    rw [theirs] at ours
    rw [asked] at same
    obtain ⟨none',latest⟩ := recognised d listed origin ours same
    rcases why with ⟨p,found⟩ | other
    · rw [none'] at found
      cases found
    · -- the display is in the list, so there is a latest one
      cases here : s.findDisplayByAddress m.sender with
      | some d' => exact other d' here (latest d' here)
      | none =>
        have := find?_eq_none.mp here d listed
        simp [origin,ours] at this
  | added d elsewhere => cases refused
  | processes i busy => cases refused
  | removed i => cases refused

private theorem Distinct.unanswered {s t : Manager} (distinct : Distinct first s past)
    (counter : t.globalSessionID = s.globalSessionID) (protos : protoIDs t = protoIDs s) :
    Distinct first t (past ++ []) := by
  rw [append_nil]
  obtain ⟨first_le,counted,nodup,accepted⟩ := distinct
  rw [← counter] at first_le counted
  rw [← protos] at counted nodup accepted
  exact ⟨first_le,counted,nodup,accepted⟩

theorem step_distinct (distinct : Distinct first s past) (event : Event)
    (few : s.globalSessionID+requests [event] ≤ first+2^32) :
    Distinct first (s.step networkAddressToName event).1 (past ++ (s.step networkAddressToName event).2) := by
  cases event with
  | request r => exact distinct.request r few
  | manage m => exact distinct.manage networkAddressToName m
  | added d elsewhere => exact distinct.unanswered rfl rfl
  | processes i busy => exact distinct.unanswered rfl rfl
  | removed i => exact distinct.unanswered rfl rfl

theorem step_accepted (distinct : Distinct first s past) {event : Event}
    {d : Display} (starts : .newDisplay d ∈ (s.step networkAddressToName event).2) : d.sessionID ∈ acceptedIDs past := by
  have started : d.sessionID ∈ startedIDs (s.step networkAddressToName event).2 := mem_filterMap.mpr ⟨_,starts,rfl⟩
  cases event with
  | request r =>
    unfold Manager.step at started
    rw [(request_respond_ids s r).1] at started
    cases started
  | manage m =>
    unfold Manager.step at started
    obtain ⟨-,⟨-,silent⟩ | ⟨front,id,rest,split,-,only⟩⟩ := manage_ids networkAddressToName s m
    · rw [silent] at started
      cases started
    · rw [only,mem_singleton] at started
      apply distinct.accepted
      rw [started,split]
      simp
  | added d elsewhere => cases started
  | processes i busy => cases started
  | removed i => cases started

private theorem requests_cons (event : Event) (rest : List Event) :
    requests (event :: rest) = requests [event]+requests rest := by
  cases event <;> simp [requests,Nat.add_comm]

private theorem step_counter (s : Manager) (event : Event) :
    (s.step networkAddressToName event).1.globalSessionID ≤ s.globalSessionID+requests [event] := by
  cases event with
  | request r =>
    rcases (request_respond_ids s r).2.2.1 with ⟨same,-⟩ | ⟨next,-⟩
    · exact same ▸ Nat.le_add_right _ _
    · exact Nat.le_of_eq next
  | manage m => exact Nat.le_of_eq (manage_ids networkAddressToName s m).1
  | added d elsewhere => exact Nat.le_refl _
  | processes i busy => exact Nat.le_refl _
  | removed i => exact Nat.le_refl _

theorem run_distinct (events : List Event)
    (distinct : Distinct first s past) (few : s.globalSessionID+requests events ≤ first+2^32) :
    Distinct first (s.run networkAddressToName events).1 (past ++ (s.run networkAddressToName events).2) := by
  induction events generalizing s past with
  | nil =>
    rw [Manager.run,append_nil]
    exact distinct
  | cons event rest ih =>
    rw [requests_cons] at few
    have counter := step_counter networkAddressToName s event
    have next := step_distinct networkAddressToName distinct event (by omega)
    rw [Manager.run,← append_assoc]
    exact ih next (by omega)

private theorem allRecognised_at {front rest : List Event} {event : Event}
    (recognised : AllRecognised networkAddressToName s (front ++ event :: rest)) :
    Recognised (s.run networkAddressToName front).1 event := by
  induction front generalizing s with
  | nil => exact recognised.1
  | cons e front ih => exact ih recognised.2

private theorem requests_front (front rest : List Event) : requests front ≤ requests (front ++ rest) := by
  induction front with
  | nil => exact Nat.zero_le _
  | cons e front ih =>
    rw [cons_append,requests_cons,requests_cons e (front ++ rest)]
    exact Nat.add_le_add_left ih _

end

end KdeWorkspace.XdmcpSessions
