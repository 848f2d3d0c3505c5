import Gateway.Proofs.Hub.Frame
import Gateway.Proofs.Session.Queue

/-!
What becomes of one session in a step of a call: the session after the step is the one before it,
edited by a function that the call alone decides.
-/
namespace Gateway

namespace Session

/-- A session as it was made: what never changes of it, with nothing that has happened since. -/
def asMade (s : Session) : Session where
  id := s.id
  matched := s.matched
  config := s.config
  subprotocol := s.subprotocol
  endpoint := s.endpoint

theorem asMade_send (s : Session) (m : Message) : (s.send m).1.asMade = s.asMade := by
  rw [send]
  cases s.sendError? m with
  | none | some => rfl

theorem asMade_markOpen (s : Session) : s.markOpen.1.asMade = s.asMade := by
  rw [markOpen]
  cases s.phase with
  | created | opened | closed => rfl

def Reaction.target (key : SessionKey) : Reaction → SessionKey
  | .takeQueue other | .requestClose other | .send other _ => other.getD key
  | _ => key

def Reaction.effect : Reaction → Session → Session
  | .takeQueue _, s => if s.takeQueue.2 then s.dropQueue else s
  | .requestClose _, s => s.requestClose
  | .send _ text, s => (s.send (.text text)).1
  | _, s => s

theorem Reaction.effect_keeps (r : Reaction) (s : Session) : (r.effect s).phase = s.phase
    ∧ (r.effect s).endpoint = s.endpoint ∧ (r.effect s).heard = s.heard := by
  cases r with
  | takeQueue other =>
      rw [effect, Session.takeQueue]
      cases s.holder with
      | session | writer | nobody => exact ⟨rfl, rfl, rfl⟩
  | send other text =>
      rw [effect, Session.send]
      cases s.sendError? (.text text) with
      | none | some => exact ⟨rfl, rfl, rfl⟩
  | succeed | fail | panic | waver | closeSession | openSession | closeAll | requestClose
  | enlist | dismiss => exact ⟨rfl, rfl, rfl⟩

theorem Reaction.asMade_effect (r : Reaction) (s : Session) : (r.effect s).asMade = s.asMade := by
  cases r with
  | send other text => exact asMade_send s (.text text)
  | takeQueue other =>
      rw [effect]
      split
      · rfl
      · rfl
  | succeed | fail | panic | waver | closeSession | openSession | closeAll | requestClose
  | enlist | dismiss => rfl

theorem markOpen_of_old {s : Session} (old : s.phase ≠ .created) : s.markOpen.1 = s := by
  rw [markOpen]
  cases phase : s.phase with
  | created => exact absurd phase old
  | opened | closed => rfl

end Session

namespace Call

/-- What one step of a call does to a session. -/
def edit (key : SessionKey) : Call → Session → Session
  | .openSession k, s => if k = key then s.markOpen.1 else s
  | .finishClose k _, s => if k = key then s.markClosed.1 else s
  | .deliver k event _ (l :: _) _, s =>
    if (l.reaction event.kind).target k = key then (l.reaction event.kind).effect s else s
  | .closeEach _ (k :: _), s => if k = key then s.requestClose else s
  | _, s => s

/-- Calls neither change an endpoint nor call it. -/
theorem edit_keeps (c : Call) (key : SessionKey) (s : Session) :
    (c.edit key s).endpoint = s.endpoint ∧ (c.edit key s).heard = s.heard := by
  cases c with
  | openSession k =>
      rw [edit, Session.markOpen]
      split
      · cases s.phase with
        | created | opened | closed => exact ⟨rfl, rfl⟩
      · exact ⟨rfl, rfl⟩
  | finishClose k removed =>
      rw [edit]
      split
      · exact ⟨rfl, rfl⟩
      · exact ⟨rfl, rfl⟩
  | deliver k event index rest faults =>
      cases rest with
      | nil => exact ⟨rfl, rfl⟩
      | cons l rest =>
          rw [edit]
          split
          · exact (Session.Reaction.effect_keeps _ s).2
          · exact ⟨rfl, rfl⟩
  | closeEach count keys =>
      cases keys with
      | nil => exact ⟨rfl, rfl⟩
      | cons k keys =>
          rw [edit]
          split
          · exact ⟨rfl, rfl⟩
          · exact ⟨rfl, rfl⟩
  | goLive | closeSession | announce | report | notify | closeAll => exact ⟨rfl, rfl⟩

theorem asMade_edit (c : Call) (key : SessionKey) (s : Session) :
    (c.edit key s).asMade = s.asMade := by
  cases c with
  | openSession k =>
      rw [edit]
      split
      · exact s.asMade_markOpen
      · rfl
  | deliver k event index rest faults =>
      cases rest with
      | nil => rfl
      | cons l rest =>
          rw [edit]
          split
          · exact (l.reaction event.kind).asMade_effect s
          · rfl
  | closeEach count keys =>
      cases keys with
      | nil => rfl
      | cons k keys =>
          rw [edit]
          split
          · rfl
          · rfl
  | finishClose k removed =>
      rw [edit]
      split
      · rfl
      · rfl
  | goLive | closeSession | announce | report | notify | closeAll => rfl

end Call

namespace Hub

theorem session?_of_sessions {h k : Hub} (same : k.sessions = h.sessions) (key : SessionKey) :
    k.session? key = h.session? key := by
  rw [session?, session?, same]

theorem session?_edit (h : Hub) (key other : SessionKey) (f : Session → Session) :
    (h.modify key f).session? other
      = (h.session? other).map fun s => if key = other then f s else s := by
  rw [session?_modify]
  by_cases same : key = other
  · simp [same]
  · simp [same]

theorem session?_nextKey (h : Hub) : h.session? h.nextKey = none :=
  List.getElem?_eq_none (Nat.le_refl _)

theorem session?_create (h : Hub) (matched : Path.Match) (config : Config.SessionConfig)
    (subprotocol : Option String) (endpoint : Session.Endpoint) (key : SessionKey) :
    (h.create matched config subprotocol endpoint).1.session? key
      = if key = h.nextKey then
          some { id := .made h.nextKey, matched, config, subprotocol, endpoint }
        else h.session? key := by
  rw [session?, session?, create, nextKey]
  rcases Nat.lt_trichotomy key h.sessions.length with before | rfl | after
  · rw [List.getElem?_append_left before, if_neg (Nat.ne_of_lt before)]
  · simp
  · rw [if_neg (Nat.ne_of_gt after), List.getElem?_eq_none (Nat.le_of_lt after),
      List.getElem?_eq_none (by simpa [Nat.succ_le_iff] using after)]

theorem session?_idle {h k : Hub} (key : SessionKey) (same : k.sessions = h.sessions)
    {f : Session → Session} (still : ∀ s, h.session? key = some s → f s = s) :
    k.session? key = (h.session? key).map f := by
  rw [session?_of_sessions same]
  cases found : h.session? key with
  | none => rfl
  | some s => rw [Option.map_some, still s found]

theorem session?_send (h : Hub) (key other : SessionKey) (m : Session.Message) :
    (h.send key m).1.session? other
      = (h.session? other).map fun s => if key = other then (s.send m).1 else s := by
  have refused {k : Hub} (same : k.sessions = h.sessions)
      (still : ∀ s, h.session? key = some s → (s.send m).1 = s) : k.session? other
        = (h.session? other).map fun s => if key = other then (s.send m).1 else s := by
    refine session?_idle other same fun s found => ?_
    split
    · rename_i same
      subst same
      exact still s found
    · rfl
  rw [send]
  cases found : h.session? key with
  | none => exact refused rfl fun s there => absurd (found.symm.trans there) (by simp)
  | some s =>
      have still {e : Session.Error} (error : s.sendError? m = some e) (t : Session)
          (there : h.session? key = some t) : (t.send m).1 = t := by
        rw [← Option.some.inj (found.symm.trans there)]
        exact Session.send_of_error error
      dsimp only
      split
      · rename_i error
        exact refused rfl (still error)
      · rename_i error
        exact refused rfl (still error)
      · exact session?_edit h key other _

theorem session?_react (h : Hub) (key other : SessionKey) (r : Session.Reaction) :
    (h.react key r).1.session? other
      = (h.session? other).map fun s => if r.target key = other then r.effect s else s := by
  cases r with
  | succeed | fail | panic | waver | closeSession | openSession | closeAll | dismiss =>
      exact session?_idle other rfl fun s _ => ite_self s
  | takeQueue target | requestClose target => exact session?_edit h (target.getD key) other _
  | send target text =>
      have sent := session?_send h (target.getD key) other (.text text)
      rw [react]
      generalize h.send (target.getD key) (.text text) = result at sent ⊢
      obtain ⟨k, outcome⟩ := result
      cases outcome with
      | ok | error => exact sent
  | enlist name =>
      rw [react]
      cases h.listener? name with
      | none | some => exact session?_idle other rfl fun s _ => ite_self s

theorem session?_tell (h : Hub) (l : Session.Listener) (key other : SessionKey)
    (event : Session.Event) (index : Nat) : (h.tell l key event index).1.session? other
      = (h.session? other).map fun s =>
        if (l.reaction event.kind).target key = other then (l.reaction event.kind).effect s
        else s := by
  have heard := session?_of_sessions (hear_frame h l key event).1 other
  have reacted := session?_react (h.hear l key event) key other (l.reaction event.kind)
  rw [heard] at reacted
  rw [tell]
  generalize (h.hear l key event).react key (l.reaction event.kind) = reaction at reacted ⊢
  obtain ⟨k, cause⟩ := reaction
  cases cause with
  | none => exact reacted
  | some cause => exact (session?_of_sessions rfl other).trans reacted

theorem session?_step (h : Hub) (c : Call) (key : SessionKey) :
    (c.step h).1.session? key = (h.session? key).map (c.edit key) := by
  cases c with
  | openSession k =>
      rw [Call.step]
      cases now : h.phase k with
      | created => exact session?_edit h k key fun s => s.markOpen.1
      | opened | closed =>
          refine session?_idle (h := h) key rfl fun s found => ?_
          rw [Call.edit]
          split
          · rename_i same
            subst same
            have phase : s.phase = h.phase k := by rw [phase, found]; rfl
            exact Session.markOpen_of_old (by rw [phase, now]; simp)
          · rfl
  | finishClose k removed => exact session?_edit h k key fun s => s.markClosed.1
  | deliver k event index rest faults =>
      cases rest with
      | nil => exact session?_idle key rfl fun s _ => rfl
      | cons l rest => exact session?_tell h l k key event index
  | closeEach count keys =>
      cases keys with
      | nil =>
          rw [Call.step]
          split
          · exact session?_idle key rfl fun s _ => rfl
          · exact session?_idle key rfl fun s _ => rfl
      | cons k keys => exact session?_edit h k key Session.requestClose
  | goLive | closeSession | announce | report | notify | closeAll =>
      exact session?_idle key rfl fun s _ => rfl

/-! ### Calls -/

/-- The calls that a step of a call can leave to be done. -/
inductive Left (h : Hub) : Call → Call → Prop
  | opening {key : SessionKey} : h.phase key = .created → Left h (.openSession key) (.goLive key)
  | opened {key : SessionKey} : Left h (.goLive key) (.announce key .opened)
  | closing {key : SessionKey} {live : Bool} : Left h (.closeSession key) (.finishClose key live)
  | closed {key : SessionKey} {live : Bool} : Left h (.finishClose key live) (.announce key .closed)
  | announced {key : SessionKey} {event : Session.Event} :
      Left h (.announce key event) (.notify key event)
  | reported {key : SessionKey} {e : Session.Error} :
      Left h (.report key e) (.notify key (.failed e))
  | read {key : SessionKey} {event : Session.Event} :
      Left h (.notify key event) (.deliver key event 0 h.registry.listeners [])
  | told {key : SessionKey} {event : Session.Event} {index : Nat} {l : Session.Listener}
      {rest : List Session.Listener} {faults faults' : List Session.Fault} :
      Left h (.deliver key event index (l :: rest) faults)
        (.deliver key event (index + 1) rest faults')
  | reopens {key k : SessionKey} {event : Session.Event} {index : Nat} {l : Session.Listener}
      {rest : List Session.Listener} {faults : List Session.Fault} :
      .openSession k ∈ (l.reaction event.kind).calls key →
      Left h (.deliver key event index (l :: rest) faults) (.openSession k)
  | recloses {key k : SessionKey} {event : Session.Event} {index : Nat} {l : Session.Listener}
      {rest : List Session.Listener} {faults : List Session.Fault} :
      .closeSession k ∈ (l.reaction event.kind).calls key →
      Left h (.deliver key event index (l :: rest) faults) (.closeSession k)
  | resweeps {key : SessionKey} {event : Session.Event} {index : Nat} {l : Session.Listener}
      {rest : List Session.Listener} {faults : List Session.Fault} {first : List SessionKey} :
      .closeAll first ∈ (l.reaction event.kind).calls key →
      Left h (.deliver key event index (l :: rest) faults) (.closeAll first)
  | all {first : List SessionKey} : Left h (.closeAll first)
      (.closeEach h.registry.live.length (visit first h.registry.live))
  | one {count : Nat} {key : SessionKey} {keys : List SessionKey} :
      Left h (.closeEach count (key :: keys)) (.closeSession key)
  | others {count : Nat} {key : SessionKey} {keys : List SessionKey} :
      Left h (.closeEach count (key :: keys)) (.closeEach count keys)

theorem left_of_step (h : Hub) (c : Call) : ∀ m ∈ (c.step h).2, Left h c m := by
  cases c with
  | openSession key =>
      rw [Call.step]
      cases now : h.phase key with
      | created => exact List.forall_mem_singleton.mpr (.opening now)
      | opened | closed => exact List.forall_mem_nil _
  | goLive key => exact List.forall_mem_singleton.mpr .opened
  | closeSession key => exact List.forall_mem_singleton.mpr .closing
  | finishClose key removed =>
      rw [Call.step]
      dsimp only
      split
      · exact List.forall_mem_singleton.mpr .closed
      · exact List.forall_mem_nil _
  | announce key event => exact List.forall_mem_singleton.mpr .announced
  | report key e => exact List.forall_mem_singleton.mpr .reported
  | notify key event => exact List.forall_mem_singleton.mpr .read
  | deliver key event index rest faults =>
      cases rest with
      | nil => exact List.forall_mem_nil _
      | cons l rest =>
          intro m among
          rcases List.mem_append.mp among with called | goes_on
          · rcases Session.Reaction.mem_calls called with ⟨k, rfl⟩ | ⟨k, rfl⟩ | ⟨first, rfl⟩
            · exact .recloses called
            · exact .reopens called
            · exact .resweeps called
          · rw [List.mem_singleton.mp goes_on]
            exact .told
  | closeAll first => exact List.forall_mem_singleton.mpr .all
  | closeEach count keys =>
      cases keys with
      | nil => exact List.forall_mem_nil _
      | cons key keys =>
          exact List.forall_mem_cons.mpr ⟨.one, List.forall_mem_singleton.mpr .others⟩

end Hub
end Gateway
