import KdeWorkspace.Xdmcp

/-!
The authorization data of a session. Every REQUEST that is answered with ACCEPT, also one that
comes again, makes the authorization anew; the display gets the last one. So the display and its
answers have the same data exactly if all these requests drew the same
(`manage_authorization_iff`).
-/
namespace KdeWorkspace.XdmcpAuthorization
open Xdmcp Xdmcp.Manager List
open Or (inl inr)

/-- The bytes of an authorization that a request gets: what was drawn for it, if it names a protocol that is there. -/
def drawn (r : Request) : Bytes :=
  match r.authorizationIndex.bind (r.authorizationNames[·]?) with
  | some name => if (findProtocol name).isSome then r.authData.getD [] else []
  | none => []

/-- The session of a display, if it has one, and the number of sessions so far. -/
structure Phase where
  session : Option Nat
  counter : Nat
deriving Repr, DecidableEq

namespace Phase

/-- The session that a request is about; a new one if the display has none. -/
def entered (phase : Phase) (r : Request) : Phase :=
  match phase.session with
  | some _ => phase
  | none =>
    match selectConnectionTypeIndex r.connectionTypes with
    | some _ => ⟨some ((phase.counter+1)%2^32),phase.counter+1⟩
    | none => phase

/-- A session ends when no authorization can be made for a request of it. -/
def after (phase : Phase) (r : Request) : Phase :=
  if r.expectlen ≠ r.length ∨ !r.hasAddresses then phase
  else if r.authorizationIndex = none then { phase.entered r with session := none }
  else phase.entered r

/-- The session for which a request is accepted. -/
def acceptedFor (phase : Phase) (r : Request) : Option Nat :=
  if r.expectlen ≠ r.length ∨ !r.hasAddresses ∨ r.authorizationIndex = none then none
  else (phase.entered r).session

/-- The requests accepted for a session. -/
def requestsOf (id : Nat) (phase : Phase) : List Request → List Request
  | [] => []
  | r :: rest =>
    (if phase.acceptedFor r = some id then [r] else []) ++ requestsOf id (phase.after r) rest

end Phase

/-- The sessions of a display. There is never more than one. -/
def held (s : Manager) (sender : Sender) : List ProtoDisplay := s.protoDisplays.filter (·.sender == sender)

/-- The data that a display would get from this session. -/
def stored (p : ProtoDisplay) : Bytes := p.fileAuthorization.elim [] (·.data)

/-- The data in the ACCEPT packets of a session. -/
def acceptData (id : Nat) (replies : List Reply) : List Bytes :=
  replies.filterMap fun reply =>
    match reply with
    | .accept _ sessionID _ _ _ data => if sessionID = id then some data else none
    | _ => none

/-- A display has this session and no other. -/
structure Follows (s : Manager) (sender : Sender) (phase : Phase) (p : Option ProtoDisplay) : Prop where
  held : held s sender = p.toList
  session : phase.session = p.map (·.sessionID)
  counter : phase.counter = s.globalSessionID

theorem findProtoDisplay_eq (s : Manager) (sender : Sender) : s.findProtoDisplay sender = (held s sender).head? :=
  head?_filter.symm

variable {s : Manager}

theorem Follows.find {sender : Sender} {phase : Phase} {p : Option ProtoDisplay}
    (follows : Follows s sender phase p) : s.findProtoDisplay sender = p := by
  rw [findProtoDisplay_eq,follows.held]
  cases p <;> rfl

theorem Follows.sender {sender : Sender} {phase : Phase} {p : ProtoDisplay}
    (follows : Follows s sender phase (some p)) : p.sender = sender := by
  have inside : p ∈ KdeWorkspace.XdmcpAuthorization.held s sender := by rw [follows.held]; simp
  simpa using (mem_filter.mp inside).2

private theorem held_of_none {sender : Sender} (new : s.findProtoDisplay sender = none) : held s sender = [] := by
  rw [findProtoDisplay_eq] at new
  exact head?_eq_none_iff.mp new

private theorem filter_front {front : List ProtoDisplay} {sender : Sender}
    (others : ∀ q ∈ front, q.sender ≠ sender) : front.filter (·.sender == sender) = [] := by
  rw [filter_eq_nil_iff]
  intro q inside
  simpa using others q inside

private theorem held_changes {sender : Sender} {p : ProtoDisplay} (here : held s sender = [p]) :
    held (s.disposeProtoDisplay sender) sender = [] ∧
      ∀ q : ProtoDisplay, q.sender = sender → held (s.setProtoDisplay q) sender = [q] := by
  have found : s.findProtoDisplay sender = some p := by rw [findProtoDisplay_eq,here]; rfl
  obtain ⟨front,rest,split,ours,others,disposed,set⟩ := findProtoDisplay_split found
  have none' := filter_front others
  unfold held at here ⊢
  rw [split,filter_append,none'] at here
  have behind : rest.filter (·.sender == sender) = [] := by simpa [ours] using here
  constructor
  · rw [disposed,filter_append,none',behind]
    rfl
  · intro q theirs
    rw [set q theirs,filter_append,none',nil_append,filter_cons,behind]
    simp [theirs]

private theorem held_add {r : Request} (new : held s r.sender = []) (i : Nat) :
    held (s.addProtoDisplay r i) r.sender = [s.newProtoDisplay r i] := by
  unfold held addProtoDisplay timeoutProtoDisplays at *
  dsimp only
  rw [filter_cons_of_pos (by simp [newProtoDisplay]),filter_filter]
  congr 1
  rw [filter_eq_nil_iff] at new ⊢
  intro q inside both
  simp only [Bool.and_eq_true] at both
  exact new q inside both.1

private theorem authorize_data (p : ProtoDisplay) (r : Request) {j : Nat} (index : r.authorizationIndex = some j) :
    ((p.authorize r j).answered r j).elim [] (·.data) = drawn r ∧
      (stored (p.authorize r j) = drawn r ∨ stored (p.authorize r j) = stored p ∧ drawn r = []) := by
  unfold drawn
  rw [index,Option.bind_some]
  unfold ProtoDisplay.answered ProtoDisplay.authorize
  by_cases inside : j < r.authorizationNames.length
  · rw [if_pos inside,getElem?_eq_getElem inside]
    dsimp only
    unfold ProtoDisplay.setAuthorization
    cases known : findProtocol r.authorizationNames[j] with
    | none => exact ⟨rfl,inl rfl⟩
    | some name =>
      cases r.authData with
      | none => exact ⟨rfl,inl rfl⟩
      | some data => exact ⟨rfl,inl rfl⟩
  · rw [if_neg inside,getElem?_eq_none (Nat.not_lt.mp inside)]
    exact ⟨rfl,inr ⟨rfl,rfl⟩⟩

private theorem answerRequest_accepts {r : Request} {phase : Phase} {p : ProtoDisplay}
    (follows : Follows s r.sender phase (some p)) :
    (r.authorizationIndex = none ∧ Follows (s.answerRequest p r).1 r.sender { phase with session := none } none ∧
        ∀ id, acceptData id (s.answerRequest p r).2 = []) ∨
      r.authorizationIndex ≠ none ∧ ∃ p', Follows (s.answerRequest p r).1 r.sender phase (some p') ∧
        p'.sessionID = p.sessionID ∧ (stored p' = drawn r ∨ stored p' = stored p ∧ drawn r = []) ∧
        ∀ id, acceptData id (s.answerRequest p r).2 = if p.sessionID = id then [drawn r] else [] := by
  obtain ⟨gone,set⟩ := held_changes follows.held
  have ours := follows.sender
  unfold answerRequest
  cases index : r.authorizationIndex with
  | none => exact inl ⟨rfl,⟨gone,rfl,follows.counter⟩,fun _ => rfl⟩
  | some j =>
    obtain ⟨sender,id⟩ := authorize_sender p r j
    obtain ⟨sent,kept⟩ := authorize_data p r index
    refine inr ⟨by simp,p.authorize r j,⟨set _ (sender.trans ours),?_,follows.counter⟩,id,kept,?_⟩
    · rw [follows.session,Option.map_some,Option.map_some,id]
    · intro wanted
      simp only [acceptData,filterMap_cons,filterMap_nil,id,sent]
      split_ifs <;> simp_all

theorem request_respond_follows {r : Request} {phase : Phase} {p : Option ProtoDisplay}
    (follows : Follows s r.sender phase p) :
    ∃ p', Follows (s.request_respond r).1 r.sender (phase.after r) p' ∧
      (∀ id, acceptData id (s.request_respond r).2 = if phase.acceptedFor r = some id then [drawn r] else []) ∧
      ∀ q', p' = some q' → (phase.acceptedFor r = some q'.sessionID ∧ stored q' = drawn r) ∨
        ∃ q, p = some q ∧ q.sessionID = q'.sessionID ∧ stored q' = stored q := by
  unfold request_respond Phase.after Phase.acceptedFor
  by_cases short : r.expectlen ≠ r.length
  · rw [if_pos short,if_pos (inl short),if_pos (inl short)]
    exact ⟨p,follows,fun id => rfl,fun q' same => inr ⟨q',same,rfl,rfl⟩⟩
  by_cases lost : (!r.hasAddresses) = true
  · rw [if_neg short,if_pos lost,if_pos (inr lost),if_pos (inr (inl lost))]
    exact ⟨p,follows,fun id => rfl,fun q' same => inr ⟨q',same,rfl,rfl⟩⟩
  have read : ¬(r.expectlen ≠ r.length ∨ (!r.hasAddresses) = true) := fun either => either.elim short lost
  rw [if_neg short,if_neg lost,if_neg read,follows.find]
  -- the session that was there, or a new one
  have answered : ∀ (s' : Manager) (q : ProtoDisplay), Follows s' r.sender (phase.entered r) (some q) →
      ((∃ q₀, p = some q₀ ∧ q₀.sessionID = q.sessionID ∧ stored q = stored q₀) ∨ stored q = []) →
      ∃ p', Follows (s'.answerRequest q r).1 r.sender
          (if r.authorizationIndex = none then { phase.entered r with session := none } else phase.entered r) p' ∧
        (∀ id, acceptData id (s'.answerRequest q r).2 =
          if (if r.expectlen ≠ r.length ∨ (!r.hasAddresses) = true ∨ r.authorizationIndex = none then none
            else (phase.entered r).session) = some id then [drawn r] else []) ∧
        ∀ q', p' = some q' →
          ((if r.expectlen ≠ r.length ∨ (!r.hasAddresses) = true ∨ r.authorizationIndex = none then none
            else (phase.entered r).session) = some q'.sessionID ∧ stored q' = drawn r) ∨
          ∃ q, p = some q ∧ q.sessionID = q'.sessionID ∧ stored q' = stored q := by
    intro s' q entered origin
    rcases answerRequest_accepts entered with ⟨unknown,ended,silent⟩ | ⟨known,q',kept,same,data,accepted⟩
    · rw [if_pos unknown,if_pos (inr (inr unknown))]
      exact ⟨none,ended,silent,fun q' absurd => nomatch absurd⟩
    · have good : ¬(r.expectlen ≠ r.length ∨ (!r.hasAddresses) = true ∨ r.authorizationIndex = none) :=
        fun either => either.elim short (fun either => either.elim lost known)
      rw [if_neg known,if_neg good,entered.session,Option.map_some]
      refine ⟨some q',kept,fun id => by rw [accepted]; simp,?_⟩
      intro q'' this
      cases this
      rw [same]
      rcases data with drew | ⟨kept',empty⟩
      · exact inl ⟨rfl,drew⟩
      · rcases origin with ⟨q₀,before,id,data⟩ | fresh
        · exact inr ⟨q₀,before,id,kept'.trans data⟩
        · exact inl ⟨rfl,by rw [kept',fresh,empty]⟩
  cases p with
  | some q =>
    have same : phase.entered r = phase := by
      unfold Phase.entered
      rw [follows.session]
      rfl
    apply answered s q
    · rw [same]
      exact follows
    · exact inl ⟨q,rfl,rfl,rfl⟩
  | none =>
    dsimp only
    cases type : selectConnectionTypeIndex r.connectionTypes with
    | none =>
      have same : phase.entered r = phase := by
        unfold Phase.entered
        rw [follows.session,type]
        rfl
      have closed : phase.session = none := follows.session
      rw [same,closed]
      refine ⟨none,?_,?_,fun q' absurd => nomatch absurd⟩
      · split_ifs
        · exact ⟨follows.held,rfl,follows.counter⟩
        · exact follows
      · intro id
        simp [acceptData]
    | some i =>
      have new : phase.entered r = ⟨some ((phase.counter+1)%2^32),phase.counter+1⟩ := by
        unfold Phase.entered
        rw [follows.session,type]
        rfl
      apply answered (s.addProtoDisplay r i) (s.newProtoDisplay r i)
      · rw [new]
        exact ⟨held_add follows.held i,by rw [follows.counter]; rfl,by rw [follows.counter]; rfl⟩
      · exact inr rfl

section
variable (networkAddressToName : Nat → Bytes → Sender → String)

theorem run_follows {s : Manager} {sender : Sender} {phase : Phase} {p : Option ProtoDisplay} {rs : List Request}
    (ours : ∀ r ∈ rs, r.sender = sender) (follows : Follows s sender phase p) :
    ∃ p' last, Follows (s.run networkAddressToName (rs.map .request)).1 sender last p' ∧
      (∀ id, acceptData id (s.run networkAddressToName (rs.map .request)).2 = (phase.requestsOf id rs).map drawn) ∧
      ∀ q', p' = some q' → (∃ r ∈ phase.requestsOf q'.sessionID rs, stored q' = drawn r) ∨
        ∃ q, p = some q ∧ q.sessionID = q'.sessionID ∧ stored q' = stored q := by
  induction rs generalizing s phase p with
  | nil => exact ⟨p,phase,follows,fun _ => rfl,fun q' same => inr ⟨q',same,rfl,rfl⟩⟩
  | cons r rest ih =>
    obtain ⟨first,others⟩ := forall_mem_cons.mp ours
    subst first
    obtain ⟨p₁,follows₁,accepted₁,data₁⟩ := request_respond_follows follows
    obtain ⟨p₂,last,follows₂,accepted₂,data₂⟩ := ih others follows₁
    refine ⟨p₂,last,follows₂,?_,?_⟩
    · intro id
      have both : acceptData id (s.run networkAddressToName ((r :: rest).map .request)).2 =
          acceptData id (s.request_respond r).2 ++
            acceptData id ((s.request_respond r).1.run networkAddressToName (rest.map .request)).2 :=
        filterMap_append
      rw [both,accepted₁,accepted₂,Phase.requestsOf,map_append]
      split_ifs <;> rfl
    · intro q' same
      rcases data₂ q' same with ⟨r',inside,drew⟩ | ⟨q,before,id,kept⟩
      · exact inl ⟨r',by rw [Phase.requestsOf]; exact mem_append_right _ inside,drew⟩
      · rcases data₁ q before with ⟨accepted,drew⟩ | ⟨q₀,start,id',kept'⟩
        · refine inl ⟨r,?_,kept.trans drew⟩
          rw [Phase.requestsOf,if_pos (by rw [accepted,id])]
          exact mem_append_left _ (mem_singleton_self r)
        · exact inr ⟨q₀,start,id'.trans id,kept.trans kept'⟩

/-- The data a display is started with. -/
def authorizationData (d : Display) : Bytes := d.authorizations.head?.elim [] (·.data)

theorem manage_newDisplay {s : Manager} {m : Manage} {d : Display}
    (starts : .newDisplay d ∈ (s.manage networkAddressToName m).2) :
    ∃ p, s.findProtoDisplay m.sender = some p ∧ p.sessionID = m.sessionID ∧ authorizationData d = stored p := by
  unfold Manager.manage at starts
  split at starts
  · cases starts
  · split at starts
    · split at starts
      · split at starts <;> simp at starts
      · simp at starts
    · split at starts
      · simp at starts
      · rename_i p found same
        simp only [mem_singleton,Reply.newDisplay.injEq] at starts
        refine ⟨p,found,by simpa using same,?_⟩
        rw [starts]
        unfold authorizationData started stored
        cases p.fileAuthorization <;> rfl

end

end KdeWorkspace.XdmcpAuthorization
