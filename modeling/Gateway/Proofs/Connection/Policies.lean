import Gateway.Proofs.Connection.Keeping
import Gateway.Proofs.Connection.Serving

/-!
What a session is made with: its policy, its subprotocol, its endpoint. It keeps them, whatever
becomes of it in the registry, at its endpoint or on its connection.
-/
namespace Gateway

namespace Session

variable {s t : Session}

theorem config_of_asMade (same : t.asMade = s.asMade) : t.config = s.config := by
  have config : t.asMade.config = s.asMade.config := congrArg Session.config same
  exact config

theorem subprotocol_of_asMade (same : t.asMade = s.asMade) : t.subprotocol = s.subprotocol := by
  have subprotocol : t.asMade.subprotocol = s.asMade.subprotocol :=
    congrArg Session.subprotocol same
  exact subprotocol

end Session

namespace Hub

/-- The sessions that there were are still there, as they were made. -/
def KeepsSessions (h k : Hub) : Prop :=
  ∀ key s, h.session? key = some s → ∃ t, k.session? key = some t ∧ t.asMade = s.asMade

variable {h k l : Hub}

theorem KeepsSessions.trans (first : KeepsSessions h k) (second : KeepsSessions k l) :
    KeepsSessions h l := by
  intro key s found
  obtain ⟨t, now, same⟩ := first key s found
  obtain ⟨u, later, still⟩ := second key t now
  exact ⟨u, later, still.trans same⟩

theorem keepsSessions_edit {f : SessionKey → Session → Session}
    (now : ∀ key, k.session? key = (h.session? key).map (f key))
    (same : ∀ key s, (f key s).asMade = s.asMade) : KeepsSessions h k := by
  intro key s found
  refine ⟨f key s, ?_, same key s⟩
  rw [now, found]
  rfl

theorem keepsSessions_of_sessions (same : k.sessions = h.sessions) : KeepsSessions h k :=
  keepsSessions_edit (f := fun _ s => s)
    (fun key => by rw [session?_of_sessions same, Option.map_id']) fun _ _ => rfl

theorem keepsSessions_modify (h : Hub) (key : SessionKey) {f : Session → Session}
    (same : ∀ s, (f s).asMade = s.asMade) : KeepsSessions h (h.modify key f) := by
  refine keepsSessions_edit (fun other => session?_edit h key other f) fun other s => ?_
  split
  · exact same s
  · rfl

theorem keepsSessions_send (h : Hub) (key : SessionKey) (m : Session.Message) :
    KeepsSessions h (h.send key m).1 := by
  refine keepsSessions_edit (fun other => session?_send h key other m) fun other s => ?_
  split
  · exact s.asMade_send m
  · rfl

theorem keepsSessions_step (h : Hub) (c : Call) : KeepsSessions h (c.step h).1 :=
  keepsSessions_edit (session?_step h c) fun key s => c.asMade_edit key s

theorem keepsSessions_create (h : Hub) (matched : Path.Match) (config : Config.SessionConfig)
    (subprotocol : Option String) (endpoint : Session.Endpoint) :
    KeepsSessions h (h.create matched config subprotocol endpoint).1 := by
  intro key s found
  refine ⟨s, ?_, rfl⟩
  rw [session?_create, if_neg, found]
  rintro rfl
  exact absurd (found.symm.trans (session?_nextKey h)) (by simp)

theorem keepsSessions_atWork : KeptAtWork KeepsSessions where
  of_eq same _ _ := keepsSessions_of_sessions same
  trans := KeepsSessions.trans
  send := keepsSessions_send
  requestClose h key := keepsSessions_modify h key fun _ => rfl

end Hub

namespace Connection

open Hub (KeepsSessions keepsSessions_of_sessions keepsSessions_modify)

theorem keepsSessions_byPump (key : SessionKey) : KeptByPump key KeepsSessions where
  toAtWork := Hub.keepsSessions_atWork
  edit h _ same := keepsSessions_modify h key same

theorem Pump.keepsSessions_step (h : Hub) (p : Pump) (choice : Option Pump.Choice) :
    KeepsSessions h (p.step h choice).1 := by
  cases calls : p.calls with
  | nil => exact (keepsSessions_byPump p.key).step h rfl calls choice
  | cons call rest =>
      unfold step
      rw [calls]
      exact Hub.keepsSessions_step h call

/-- Whatever happens on the hub, a session stays as it was made. -/
theorem Deed.keepsSessions (h : Hub) (d : Deed) : KeepsSessions h (d.result h) := by
  cases d with
  | call c => exact Hub.keepsSessions_step h c
  | send key m => exact Hub.keepsSessions_send h key m
  | requestClose key => exact keepsSessions_modify h key fun _ => rfl
  | serve p choice => exact p.keepsSessions_step h choice
  | make matched config subprotocol endpoint => exact Hub.keepsSessions_create h _ _ _ _
  | enlist | dismiss | wait => exact keepsSessions_of_sessions rfl

end Connection
end Gateway
