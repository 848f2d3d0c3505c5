import Gateway.Hub.Callback
import Gateway.Proofs.Hub.Sessions

/-!
What the acts of an endpoint leave alone. They change no phase, no live set and no listener, and no
endpoint is called from inside another; whether a callback panics depends on the callbacks before
it alone.
-/
namespace Gateway

open Session (Callback PanicPayload)

namespace Session

def Act.panic? : Act → Option PanicPayload
  | .panic payload => some payload
  | _ => none

def Endpoint.panic? (e : Endpoint) (heard : List Callback) (c : Callback) : Option PanicPayload :=
  (e.react heard c).findSome? Act.panic?

def hear (c : Callback) (s : Session) : Session := { s with heard := s.heard ++ [c] }

end Session

namespace Hub

def appSide (h : Hub) (key : SessionKey) : Option (Session.Endpoint × List Callback) :=
  (h.session? key).map fun s => (s.endpoint, s.heard)

/-- Nothing has happened but what queues, wishes and logs can tell. -/
structure Aside (h k : Hub) : Prop where
  standing : SameStanding h k
  appSide : ∀ key, k.appSide key = h.appSide key

variable {h k l : Hub} {key other : SessionKey} {c : Callback}

theorem Aside.trans (first : Aside h k) (second : Aside k l) : Aside h l where
  standing := first.standing.trans second.standing
  appSide key := (second.appSide key).trans (first.appSide key)

theorem aside_of_eq (sessions : k.sessions = h.sessions)
    (live : k.registry.live = h.registry.live) : Aside h k where
  standing := sameStanding_of_eq sessions live
  appSide key := by rw [appSide, appSide, session?_of_sessions sessions]

theorem aside_refl (h : Hub) : Aside h h := aside_of_eq rfl rfl

theorem appSide_edit {f : Session → Session} (now : k.session? key = (h.session? key).map f)
    (endpoint : ∀ s, (f s).endpoint = s.endpoint) (heard : ∀ s, (f s).heard = s.heard) :
    k.appSide key = h.appSide key := by
  rw [appSide, appSide, now, Option.map_map]
  congr 1
  funext s
  rw [Function.comp_apply, endpoint, heard]

theorem aside_modify (h : Hub) (key : SessionKey) {f : Session → Session}
    (phase : ∀ s, (f s).phase = s.phase) (endpoint : ∀ s, (f s).endpoint = s.endpoint)
    (heard : ∀ s, (f s).heard = s.heard) : Aside h (h.modify key f) where
  standing := sameStanding_modify h key phase
  appSide other := by
    refine appSide_edit (session?_edit h key other f) (fun s => ?_) (fun s => ?_)
    · split
      · exact endpoint s
      · rfl
    · split
      · exact heard s
      · rfl

theorem aside_send (h : Hub) (key : SessionKey) (m : Session.Message) :
    Aside h (h.send key m).1 where
  standing := (sameStanding_send h key m).1
  appSide other := by
    have keeps (s : Session) : (s.send m).1.endpoint = s.endpoint
        ∧ (s.send m).1.heard = s.heard := by
      rw [Session.send]
      cases s.sendError? m with
      | none | some => exact ⟨rfl, rfl⟩
    refine appSide_edit (session?_send h key other m) (fun s => ?_) (fun s => ?_)
    · split
      · exact (keeps s).1
      · rfl
    · split
      · exact (keeps s).2
      · rfl

/-- A relation between a hub and what endpoints at work make of it: sends and wishes to close keep
it, and so does everything that leaves the sessions, the registry and the cast as they are. -/
structure KeptAtWork (R : Hub → Hub → Prop) : Prop where
  of_eq {h k : Hub} : k.sessions = h.sessions → k.registry = h.registry → k.cast = h.cast → R h k
  trans {h k l : Hub} : R h k → R k l → R h l
  send (h : Hub) (key : SessionKey) (m : Session.Message) : R h (h.send key m).1
  requestClose (h : Hub) (key : SessionKey) : R h (h.modify key Session.requestClose)

namespace KeptAtWork
variable {R : Hub → Hub → Prop} (kept : KeptAtWork R)
include kept

theorem complain (h : Hub) (key : SessionKey) (e : Session.Error)
    (complaint : Session.Complaint) : R h (h.complain key e complaint) := by
  cases complaint with
  | logged | journaled => exact kept.of_eq rfl rfl rfl

theorem flood (h : Hub) (key : SessionKey) (next count : Nat) :
    R h (h.flood key next count) := by
  induction count generalizing h next with
  | zero => exact kept.of_eq rfl rfl rfl
  | succ count ih =>
      have sent := kept.send h key (.text (toString next))
      rw [Hub.flood]
      generalize h.send key (.text (toString next)) = result at sent ⊢
      obtain ⟨k, outcome⟩ := result
      cases outcome with
      | ok => exact kept.trans sent (ih k (next + 1))
      | error e => exact kept.trans sent (kept.complain k key e .journaled)

theorem sendEach (h : Hub) (text : String) (keys : List SessionKey) :
    R h (h.sendEach text keys).1 := by
  induction keys generalizing h with
  | nil => exact kept.of_eq rfl rfl rfl
  | cons key rest ih =>
      have sent := kept.send h key (.text text)
      rw [Hub.sendEach]
      generalize h.send key (.text text) = result at sent ⊢
      obtain ⟨k, outcome⟩ := result
      cases outcome with
      | ok => exact kept.trans sent (ih k)
      | error e =>
          have logged : R k (k.log .debug "Chat delivery failed"
            [("error", .text e.message), ("session_id", .session key)]) := kept.of_eq rfl rfl rfl
          exact kept.trans (kept.trans sent logged) (ih _)

theorem act (h : Hub) (key : SessionKey) (c : Callback) (a : Session.Act) :
    R h (h.act key c a).1 := by
  cases a with
  | record | countRoom | panic => exact kept.of_eq rfl rfl rfl
  | send m complaint =>
      have sent := kept.send h key m
      rw [Hub.act]
      generalize h.send key m = result at sent ⊢
      obtain ⟨k, outcome⟩ := result
      cases outcome with
      | ok => exact sent
      | error e => exact kept.trans sent (kept.complain k key e complaint)
  | flood count => exact kept.flood h key 0 count
  | broadcast registry text =>
      exact kept.trans (kept.sendEach h text ((h.roomMates registry key).filter (· != key)))
        (kept.of_eq rfl rfl rfl)
  | requestClose => exact kept.requestClose h key

theorem acts (h : Hub) (key : SessionKey) (c : Callback) (as : List Session.Act) :
    R h (h.acts key c as).1 := by
  induction as generalizing h with
  | nil => exact kept.of_eq rfl rfl rfl
  | cons a rest ih =>
      have first := kept.act h key c a
      rw [Hub.acts]
      generalize h.act key c a = result at first ⊢
      obtain ⟨k, panicked⟩ := result
      cases panicked with
      | none => exact kept.trans first (ih k)
      | some payload => exact first

end KeptAtWork

theorem aside_atWork : KeptAtWork Aside where
  of_eq sessions registry _ := aside_of_eq sessions (congrArg Registry.live registry)
  trans := Aside.trans
  send := aside_send
  requestClose h key := aside_modify h key (fun _ => rfl) (fun _ => rfl) fun _ => rfl

theorem panic_act (h : Hub) (key : SessionKey) (c : Callback) (a : Session.Act) :
    (h.act key c a).2 = a.panic? := by
  cases a with
  | send m complaint =>
      rw [act]
      split
      · rfl
      · rfl
  | record | flood | countRoom | broadcast | requestClose | panic => rfl

theorem acts_spec (h : Hub) (key : SessionKey) (c : Callback) (as : List Session.Act) :
    Aside h (h.acts key c as).1 ∧ (h.acts key c as).2 = as.findSome? Session.Act.panic? := by
  refine ⟨aside_atWork.acts h key c as, ?_⟩
  induction as generalizing h with
  | nil => rfl
  | cons a rest ih =>
      have outcome := panic_act h key c a
      rw [acts, List.findSome?_cons]
      generalize h.act key c a = result at outcome ⊢
      obtain ⟨k, panicked⟩ := result
      subst outcome
      cases a.panic? with
      | none => exact ih k
      | some payload => rfl

/-- An endpoint has been called once, and panicked or not as it does after what it had heard. -/
structure Hears (key : SessionKey) (c : Callback) (o : Option PanicPayload) (h k : Hub) :
    Prop where
  standing : SameStanding h k
  elsewhere : ∀ other, key ≠ other → k.appSide other = h.appSide other
  here : ∀ e heard, h.appSide key = some (e, heard) →
    k.appSide key = some (e, heard ++ [c]) ∧ o = e.panic? heard c

variable {o : Option PanicPayload}

theorem Hears.after (aside : Aside h k) (hears : Hears key c o k l) : Hears key c o h l where
  standing := aside.standing.trans hears.standing
  elsewhere other apart := (hears.elsewhere other apart).trans (aside.appSide other)
  here e heard found := hears.here e heard ((aside.appSide key).trans found)

theorem Hears.before (hears : Hears key c o h k) (aside : Aside k l) : Hears key c o h l where
  standing := hears.standing.trans aside.standing
  elsewhere other apart := (aside.appSide other).trans (hears.elsewhere other apart)
  here e heard found := by
    obtain ⟨now, outcome⟩ := hears.here e heard found
    exact ⟨(aside.appSide key).trans now, outcome⟩

theorem callback_of_session {s : Session} (found : h.session? key = some s) :
    h.callback key c
      = (h.modify key (Session.hear c)).acts key c (s.endpoint.react s.heard c) := by
  rw [callback, found]
  rfl

theorem callback_hears (h : Hub) (key : SessionKey) (c : Callback) :
    Hears key c (h.callback key c).2 h (h.callback key c).1 := by
  cases found : h.session? key with
  | none =>
      have still : h.callback key c = (h, none) := by rw [callback, found]
      rw [still]
      refine ⟨sameStanding_of_eq rfl rfl, fun _ _ => rfl, ?_⟩
      intro e heard there
      rw [appSide, found] at there
      exact absurd there (by simp)
  | some s =>
      have marked := session?_modify h key (f := Session.hear c)
      obtain ⟨aside, outcome⟩ := acts_spec (h.modify key (Session.hear c)) key c
        (s.endpoint.react s.heard c)
      rw [callback_of_session found]
      have phase : SameStanding h (h.modify key (Session.hear c)) :=
        sameStanding_modify h key fun _ => rfl
      refine ⟨phase.trans aside.standing, ?_, ?_⟩
      · intro other apart
        rw [aside.appSide, appSide, marked, if_neg apart]
        rfl
      · intro e heard there
        have same : (s.endpoint, s.heard) = (e, heard) := by
          rw [appSide, found] at there
          exact Option.some.inj there
        obtain ⟨rfl, rfl⟩ := Prod.mk.inj same
        refine ⟨?_, outcome⟩
        rw [aside.appSide, appSide, marked, if_pos rfl, found]
        rfl

end Hub
end Gateway
