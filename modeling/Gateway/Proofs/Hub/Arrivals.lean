import Gateway.Proofs.Hub.Acts

/-!
Messages on their way into queues. Once the queue of a session has been handed over, only its
reader takes from it. Whatever else happens on the hub, the queue gains the messages that the
session accepts, in the order in which it accepts them, and its endpoint is not called.
-/
namespace Gateway

namespace Session

/-- A session accepts messages, one by one. What else happens to it meanwhile leaves its queue and
who holds it alone. -/
inductive Accepts : Session → List Message → Session → Prop
  | quiet {s t : Session} : t.config = s.config → t.holder = s.holder → t.queue = s.queue →
      Accepts s [] t
  | send {s : Session} {m : Message} : (s.send m).2 = .ok () → Accepts s [m] (s.send m).1
  | trans {s t u : Session} {ms more : List Message} : Accepts s ms t → Accepts t more u →
      Accepts s (ms ++ more) u

structure Gains (s : Session) (ms : List Message) (t : Session) : Prop where
  config : t.config = s.config
  holder : t.holder = s.holder
  queue : t.queue = s.queue ++ ms

/-- A session has done nothing but accept messages. Its endpoint has not been called. -/
structure Feeds (s t : Session) : Prop where
  accepts : ∃ ms, s.Accepts ms t
  endpoint : t.endpoint = s.endpoint
  heard : t.heard = s.heard

variable {s t u : Session} {ms : List Message}

theorem Accepts.gains (h : s.Accepts ms t) : s.Gains ms t := by
  induction h with
  | quiet config holder queue => exact ⟨config, holder, queue.trans (List.append_nil _).symm⟩
  | send accepted =>
      rw [send_of_ok accepted]
      exact ⟨rfl, rfl, rfl⟩
  | trans _ _ first second =>
      exact ⟨second.config.trans first.config, second.holder.trans first.holder,
        by rw [second.queue, first.queue, List.append_assoc]⟩

theorem feeds_refl (s : Session) : s.Feeds s := ⟨⟨[], .quiet rfl rfl rfl⟩, rfl, rfl⟩

theorem Feeds.trans (first : s.Feeds t) (second : t.Feeds u) : s.Feeds u := by
  obtain ⟨ms, accepts⟩ := first.accepts
  obtain ⟨more, accepts'⟩ := second.accepts
  exact ⟨⟨ms ++ more, accepts.trans accepts'⟩, second.endpoint.trans first.endpoint,
    second.heard.trans first.heard⟩

theorem Feeds.holder (h : s.Feeds t) : t.holder = s.holder := by
  obtain ⟨ms, accepts⟩ := h.accepts
  exact accepts.gains.holder

theorem feeds_requestClose (s : Session) : s.Feeds s.requestClose :=
  ⟨⟨[], .quiet rfl rfl rfl⟩, rfl, rfl⟩

theorem feeds_markClosed (s : Session) : s.Feeds s.markClosed.1 :=
  ⟨⟨[], .quiet rfl rfl rfl⟩, rfl, rfl⟩

theorem feeds_markOpen (s : Session) : s.Feeds s.markOpen.1 := by
  rw [markOpen]
  cases s.phase with
  | created => exact ⟨⟨[], .quiet rfl rfl rfl⟩, rfl, rfl⟩
  | opened | closed => exact feeds_refl s

theorem feeds_send (s : Session) (m : Message) : s.Feeds (s.send m).1 := by
  cases error : s.sendError? m with
  | none =>
      have accepted : (s.send m).2 = .ok () := by rw [send, error]
      refine ⟨⟨[m], .send accepted⟩, ?_, ?_⟩
      · rw [send_of_ok accepted]
      · rw [send_of_ok accepted]
  | some e =>
      rw [send_of_error error]
      exact feeds_refl s

theorem takeQueue_of_held (held : s.holder ≠ .session) : s.takeQueue = (s, false) := by
  rw [takeQueue]
  cases holder : s.holder with
  | session => exact absurd holder held
  | writer | nobody => rfl

/-- A queue that has been handed over is not handed over again. -/
theorem feeds_effect (held : s.holder ≠ .session) (r : Reaction) : s.Feeds (r.effect s) := by
  cases r with
  | takeQueue other =>
      rw [Reaction.effect, takeQueue_of_held held, if_neg Bool.false_ne_true]
      exact feeds_refl s
  | send other text => exact feeds_send s (.text text)
  | requestClose => exact feeds_requestClose s
  | succeed | fail | panic | waver | closeSession | openSession | closeAll | enlist
  | dismiss => exact feeds_refl s

end Session

theorem Call.feeds_edit {s : Session} (held : s.holder ≠ .session) (c : Call)
    (key : SessionKey) : s.Feeds (c.edit key s) := by
  cases c with
  | openSession k =>
      rw [edit]
      split
      · exact s.feeds_markOpen
      · exact s.feeds_refl
  | finishClose k removed =>
      rw [edit]
      split
      · exact s.feeds_markClosed
      · exact s.feeds_refl
  | deliver k event index rest faults =>
      cases rest with
      | nil => exact s.feeds_refl
      | cons l rest =>
          rw [edit]
          split
          · exact Session.feeds_effect held _
          · exact s.feeds_refl
  | closeEach count keys =>
      cases keys with
      | nil => exact s.feeds_refl
      | cons k keys =>
          rw [edit]
          split
          · exact s.feeds_requestClose
          · exact s.feeds_refl
  | goLive | closeSession | announce | report | notify | closeAll => exact s.feeds_refl

namespace Hub

/-- Sessions whose queue has been handed over have done nothing but accept messages. -/
def Feeds (h k : Hub) : Prop :=
  ∀ key s, h.session? key = some s → s.holder ≠ .session →
    ∃ t, k.session? key = some t ∧ s.Feeds t

variable {h k l : Hub}

theorem Feeds.trans (first : Feeds h k) (second : Feeds k l) : Feeds h l := by
  intro key s found held
  obtain ⟨t, now, fed⟩ := first key s found held
  obtain ⟨u, later, fed'⟩ := second key t now (by rwa [fed.holder])
  exact ⟨u, later, fed.trans fed'⟩

theorem feeds_edit {f : SessionKey → Session → Session}
    (now : ∀ key, k.session? key = (h.session? key).map (f key))
    (feeds : ∀ key (s : Session), s.holder ≠ .session → s.Feeds (f key s)) : Feeds h k := by
  intro key s found held
  refine ⟨f key s, ?_, feeds key s held⟩
  rw [now, found]
  rfl

theorem feeds_of_sessions (same : k.sessions = h.sessions) : Feeds h k :=
  feeds_edit (f := fun _ s => s) (fun key => by rw [session?_of_sessions same, Option.map_id'])
    fun _ s _ => s.feeds_refl

theorem feeds_send (h : Hub) (key : SessionKey) (m : Session.Message) :
    Feeds h (h.send key m).1 := by
  refine feeds_edit (fun other => session?_send h key other m) fun other s _ => ?_
  split
  · exact s.feeds_send m
  · exact s.feeds_refl

theorem feeds_step (h : Hub) (c : Call) : Feeds h (c.step h).1 :=
  feeds_edit (session?_step h c) fun key _ held => c.feeds_edit held key

theorem feeds_requestClose (h : Hub) (key : SessionKey) :
    Feeds h (h.modify key Session.requestClose) := by
  refine feeds_edit (fun other => session?_edit h key other _) fun other s _ => ?_
  split
  · exact s.feeds_requestClose
  · exact s.feeds_refl

theorem feeds_create (h : Hub) (matched : Path.Match) (config : Config.SessionConfig)
    (subprotocol : Option String) (endpoint : Session.Endpoint) :
    Feeds h (h.create matched config subprotocol endpoint).1 := by
  intro key s found held
  refine ⟨s, ?_, s.feeds_refl⟩
  rw [session?_create, if_neg, found]
  rintro rfl
  exact absurd (found.symm.trans (session?_nextKey h)) (by simp)

theorem Feeds.of_edit {key : SessionKey} {f g : Session → Session}
    (edited : k.sessions = (h.modify key f).sessions) (fed : Feeds (k.modify key g) l) :
    Feeds (h.modify key (g ∘ f)) l := by
  refine (feeds_of_sessions ?_).trans fed
  rw [modify, edited, modify, modify]
  exact List.modify_modify_eq f g key h.sessions

theorem sessions_modify_id (h : Hub) (key : SessionKey) : (h.modify key id).sessions = h.sessions :=
  List.modify_id key h.sessions

/-! ### Endpoints at work -/

theorem feeds_atWork : KeptAtWork Feeds where
  of_eq same _ _ := feeds_of_sessions same
  trans := Feeds.trans
  send := feeds_send
  requestClose := feeds_requestClose

theorem feeds_callback (h : Hub) (key : SessionKey) (c : Session.Callback) :
    Feeds (h.modify key (Session.hear c)) (h.callback key c).1 := by
  cases found : h.session? key with
  | none =>
      have unmade : (h.modify key (Session.hear c)).sessions = h.sessions :=
        List.modify_eq_self (List.getElem?_eq_none_iff.mp found)
      have still : h.callback key c = (h, none) := by rw [callback, found]
      rw [still]
      exact feeds_of_sessions unmade.symm
  | some s =>
      rw [callback_of_session found]
      exact feeds_atWork.acts _ key c _

end Hub
end Gateway
