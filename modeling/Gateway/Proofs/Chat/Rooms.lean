import Gateway.Proofs.Chat.Broadcast
import Gateway.Proofs.Hub.Live
import Gateway.Proofs.Hub.Tasks
import Gateway.Proofs.Hub.Touch

/-!
Chat rooms while their members come and go. Sessions are made, opened and closed by tasks that
interleave step by step, texts are said, queues are handed over, read and dropped. Whatever the
order, a member's queue is a line in which every text waits that reached it, in the order in which
the texts were said.
-/
namespace Gateway

/-- A listener that never sends anything to a session. -/
def Session.Listener.Silent (l : Session.Listener) : Prop :=
  ∀ kind other text, l.reaction kind ≠ .send other text

/-- A hub on which all sessions chat, with the tasks at work on it. -/
structure Rooms where
  hub : Hub
  tasks : List (List Call) := []

namespace Rooms

inductive Event where
  | make (matched : Path.Match) (config : Config.SessionConfig) (subprotocol : Option String)
  | begin (c : Call) (entry : c.isEntry = true)
  | step (task : Nat)
  | say (speaker : SessionKey) (text : String)
  | takeQueue (member : SessionKey)
  | read (member : SessionKey)
  | dropQueue (member : SessionKey)
  | requestClose (member : SessionKey)

def apply (r : Rooms) : Event → Rooms
  | .make matched config subprotocol =>
    { r with
      hub := (r.hub.create matched config subprotocol (.chat r.hub.registry.serial)).1 }
  | .begin c _ => { r with tasks := r.tasks ++ [[c]] }
  | .step i => ⟨(r.hub.stepTask r.tasks i).1, (r.hub.stepTask r.tasks i).2⟩
  | .say speaker text => { r with hub := (r.hub.callback speaker (.text text)).1 }
  | .takeQueue member => { r with hub := r.hub.modify member fun s => s.takeQueue.1 }
  | .read member => { r with hub := r.hub.modify member fun s => s.receive.1 }
  | .dropQueue member => { r with hub := r.hub.modify member Session.dropQueue }
  | .requestClose member => { r with hub := r.hub.modify member Session.requestClose }

def run (r : Rooms) : List Event → Rooms
  | [] => r
  | e :: rest => (r.apply e).run rest

def brought (r : Rooms) (member : SessionKey) : Event → List Session.Message
  | .say speaker text => r.hub.received speaker text member
  | _ => []

def taken (r : Rooms) (member : SessionKey) : Event → List Session.Message
  | .read reader =>
    if reader = member then ((r.hub.session? member).bind fun s => s.receive.2).toList else []
  | _ => []

/-- The texts that reached a member, in the order in which they were said. -/
def delivered (r : Rooms) (member : SessionKey) : List Event → List Session.Message
  | [] => []
  | e :: rest => r.brought member e ++ (r.apply e).delivered member rest

/-- The texts that a member has read, in the order in which it read them. -/
def heard (r : Rooms) (member : SessionKey) : List Event → List Session.Message
  | [] => []
  | e :: rest => r.taken member e ++ (r.apply e).heard member rest

end Rooms

/-! ### What reaches a queue -/

namespace Session

theorem Flow.effect (s : Session) {r : Reaction} (silent : ∀ other text, r ≠ .send other text) :
    Flow s (r.effect s) [] [] := by
  cases r with
  | takeQueue other =>
      rw [Reaction.effect]
      split
      · exact .dropQueue s
      · exact .of_same rfl rfl
  | send other text => exact absurd rfl (silent other text)
  | succeed | fail | panic | waver | closeSession | openSession | closeAll | requestClose
  | enlist | dismiss => exact .of_same rfl rfl

end Session

/-- Where the listeners still to be told send nothing, a step brings nothing to a queue. -/
theorem Call.edit_flow (c : Call) (silent : ∀ l ∈ Hub.waiting c, l.Silent) (key : SessionKey)
    (s : Session) : s.Flow (c.edit key s) [] [] := by
  cases c with
  | openSession k =>
      rw [Call.edit]
      split
      · rw [Session.markOpen]
        cases s.phase with
        | created | opened | closed => exact .of_same rfl rfl
      · exact .of_same rfl rfl
  | finishClose k removed =>
      rw [Call.edit]
      split
      · exact .of_same rfl rfl
      · exact .of_same rfl rfl
  | deliver k event index rest faults =>
      cases rest with
      | nil => exact .of_same rfl rfl
      | cons l rest =>
          rw [Call.edit]
          split
          · exact .effect s (silent l List.mem_cons_self event.kind)
          · exact .of_same rfl rfl
  | closeEach count keys =>
      cases keys with
      | nil => exact .of_same rfl rfl
      | cons k keys =>
          rw [Call.edit]
          split
          · exact .of_same rfl rfl
          · exact .of_same rfl rfl
  | goLive | closeSession | announce | report | notify | closeAll => exact .of_same rfl rfl

namespace Hub

variable {h k : Hub} {key : SessionKey} {arrived taken : List Session.Message}

def queue (h : Hub) (key : SessionKey) : List Session.Message :=
  ((h.session? key).map Session.queue).getD []

def gone (h : Hub) (key : SessionKey) : Prop :=
  ∃ s, h.session? key = some s ∧ s.holder = .nobody

/-- What went in and out of the queue of a session, whether or not it had been made. -/
structure Flow (key : SessionKey) (h k : Hub) (arrived taken : List Session.Message) : Prop where
  balance : ∃ lost, h.queue key ++ arrived = taken ++ (k.queue key ++ lost)
    ∧ (lost = [] ∨ k.gone key)
  shut : h.gone key → k.gone key ∧ arrived = [] ∧ taken = []

theorem Flow.of_session {f : Session → Session}
    (now : k.session? key = (h.session? key).map f)
    (unmade : h.session? key = none → arrived = [] ∧ taken = [])
    (made : ∀ s, h.session? key = some s → s.Flow (f s) arrived taken) :
    Flow key h k arrived taken := by
  cases found : h.session? key with
  | none =>
      obtain ⟨rfl, rfl⟩ := unmade found
      rw [found] at now
      have before : h.queue key = [] := by rw [queue, found]; rfl
      have after : k.queue key = [] := by rw [queue, now]; rfl
      refine ⟨⟨[], by rw [before, after]; rfl, .inl rfl⟩, ?_⟩
      rintro ⟨s, there, -⟩
      exact absurd (found.symm.trans there) (by simp)
  | some s =>
      obtain ⟨⟨lost, balance, kept⟩, shut, -⟩ := made s found
      rw [found] at now
      have before : h.queue key = s.queue := by rw [queue, found]; rfl
      have after : k.queue key = (f s).queue := by rw [queue, now]; rfl
      refine ⟨⟨lost, by rw [before, after, balance], ?_⟩, ?_⟩
      · exact kept.imp_right fun gone => ⟨f s, now, gone⟩
      · rintro ⟨s', there, gone⟩
        have same : s' = s := Option.some.inj (there.symm.trans found)
        subst same
        obtain ⟨nobody, still⟩ := shut gone
        exact ⟨⟨f s', now, nobody⟩, still⟩

theorem Flow.trans {l : Hub} {arrived' taken' : List Session.Message}
    (first : Flow key h k arrived taken) (emptied : k.gone key → k.queue key = [])
    (second : Flow key k l arrived' taken') :
    Flow key h l (arrived ++ arrived') (taken ++ taken') := by
  constructor
  · exact Session.balance_trans first.balance second.balance emptied second.shut
  · intro gone
    obtain ⟨gone', rfl, rfl⟩ := first.shut gone
    obtain ⟨gone'', rfl, rfl⟩ := second.shut gone'
    exact ⟨gone'', rfl, rfl⟩

end Hub

theorem Call.entry {c : Call} (entry : c.isEntry = true) :
    Hub.waiting c = [] ∧ ∀ key, c ≠ .goLive key := by
  cases c with
  | openSession | closeSession | report | closeAll => exact ⟨rfl, fun key => by simp⟩
  | goLive | finishClose | announce | notify | deliver | closeEach =>
      exact absurd entry Bool.false_ne_true

/-! ### Runs -/

namespace Rooms

variable {r : Rooms} {serial : Nat}

/-- What holds of rooms throughout a run. -/
structure Orderly (serial : Nat) (r : Rooms) : Prop where
  audience : r.hub.Audience Session.Listener.Silent serial
  waits : ∀ c ∈ r.tasks.flatten, ∀ l ∈ Hub.waiting c, l.Silent
  once : r.hub.Once r.tasks.flatten
  chats : ∀ key s, r.hub.session? key = some s → s.endpoint = .chat serial
  emptied : ∀ key s, r.hub.session? key = some s → s.holder = .nobody → s.queue = []

theorem Orderly.text (orderly : Orderly serial r) (speaker : SessionKey) : ∀ s,
    r.hub.session? speaker = some s → s.endpoint = .chat r.hub.registry.serial := by
  rw [orderly.audience.serial]
  exact orderly.chats speaker

theorem Orderly.edited {r' : Rooms} {f : SessionKey → Session → Session}
    {arrived taken : SessionKey → List Session.Message} (orderly : Orderly serial r)
    (audience : r'.hub.Audience Session.Listener.Silent serial)
    (waits : ∀ c ∈ r'.tasks.flatten, ∀ l ∈ Hub.waiting c, l.Silent)
    (once : r'.hub.Once r'.tasks.flatten)
    (now : ∀ key, r'.hub.session? key = (r.hub.session? key).map (f key))
    (endpoint : ∀ key s, (f key s).endpoint = s.endpoint)
    (unmade : ∀ key, r.hub.session? key = none → arrived key = [] ∧ taken key = [])
    (flow : ∀ key s, r.hub.session? key = some s → s.Flow (f key s) (arrived key) (taken key)) :
    Orderly serial r' ∧ ∀ key, Hub.Flow key r.hub r'.hub (arrived key) (taken key) := by
  have made {key : SessionKey} {t : Session} (there : r'.hub.session? key = some t) :
      ∃ s, r.hub.session? key = some s ∧ f key s = t := by
    rw [now] at there
    exact Option.map_eq_some_iff.mp there
  refine ⟨⟨audience, waits, once, ?_, ?_⟩, fun key => .of_session (now key) (unmade key)
    (flow key)⟩
  · intro key t there
    obtain ⟨s, found, rfl⟩ := made there
    rw [endpoint]
    exact orderly.chats key s found
  · intro key t there
    obtain ⟨s, found, rfl⟩ := made there
    exact (flow key s found).empty (orderly.emptied key s found)

theorem Orderly.modify (orderly : Orderly serial r) (key : SessionKey) {f : Session → Session}
    {taken : SessionKey → List Session.Message} (phase : ∀ s, (f s).phase = s.phase)
    (endpoint : ∀ s, (f s).endpoint = s.endpoint)
    (elsewhere : ∀ other, key ≠ other ∨ r.hub.session? other = none → taken other = [])
    (flow : ∀ s, r.hub.session? key = some s → s.Flow (f s) [] (taken key)) :
    Orderly serial { r with hub := r.hub.modify key f } ∧ ∀ other,
      Hub.Flow other r.hub (r.hub.modify key f) [] (taken other) := by
  have now (other : SessionKey) := Hub.session?_edit r.hub key other f
  refine orderly.edited (orderly.audience.of_eq rfl rfl rfl) orderly.waits ?_ now ?_ ?_ ?_
  · intro other
    refine Nat.le_trans (orderly.once other) (Hub.allowance_le other (now other) ?_)
    intro s new
    split at new
    · rwa [phase] at new
    · exact new
  · intro other s
    split
    · exact endpoint s
    · rfl
  · exact fun other unmade => ⟨rfl, elsewhere other (.inr unmade)⟩
  · intro other s found
    by_cases own : key = other
    · subst own
      rw [if_pos rfl]
      exact flow s found
    · rw [if_neg own, elsewhere other (.inl own)]
      exact .of_same rfl rfl

theorem Orderly.make (orderly : Orderly serial r) (matched : Path.Match)
    (config : Config.SessionConfig) (subprotocol : Option String) :
    Orderly serial (r.apply (.make matched config subprotocol)) ∧ ∀ key,
      Hub.Flow key r.hub (r.apply (.make matched config subprotocol)).hub [] [] := by
  have now (key : SessionKey) :
      (r.apply (.make matched config subprotocol)).hub.session? key = _ :=
    Hub.session?_create r.hub matched config subprotocol (.chat r.hub.registry.serial) key
  have unmade := Hub.session?_nextKey r.hub
  refine ⟨⟨orderly.audience.of_eq rfl rfl rfl, orderly.waits, ?_, ?_, ?_⟩, ?_⟩
  · intro key
    refine Nat.le_trans (orderly.once key) ?_
    rw [Hub.allowance, Hub.allowance, now]
    by_cases new : key = r.hub.nextKey
    · rw [new, unmade]
      exact Nat.zero_le _
    · exact Nat.le_of_eq (by rw [if_neg new])
  · intro key t there
    rw [now] at there
    split at there
    · rw [← Option.some.inj there, ← orderly.audience.serial]
    · exact orderly.chats key t there
  · intro key t there
    rw [now] at there
    split at there
    · rw [← Option.some.inj there]
      exact fun _ => rfl
    · exact orderly.emptied key t there
  · intro key
    by_cases new : key = r.hub.nextKey
    · subst new
      have before : r.hub.queue r.hub.nextKey = [] := by rw [Hub.queue, unmade]; rfl
      have after : (r.apply (.make matched config subprotocol)).hub.queue r.hub.nextKey = [] := by
        rw [Hub.queue, now, if_pos rfl]
        rfl
      refine ⟨⟨[], by rw [before, after]; rfl, .inl rfl⟩, ?_⟩
      rintro ⟨t, there, -⟩
      exact absurd (unmade.symm.trans there) (by simp)
    · refine .of_session (f := id) ?_ (fun _ => ⟨rfl, rfl⟩) fun t _ => .of_same rfl rfl
      rw [now, if_neg new, Option.map_id]
      rfl

theorem Orderly.begin (orderly : Orderly serial r) {c : Call} (entry : c.isEntry = true) :
    Orderly serial (r.apply (.begin c entry)) ∧ ∀ key,
      Hub.Flow key r.hub (r.apply (.begin c entry)).hub [] [] := by
  have calls : (r.apply (.begin c entry)).tasks.flatten = r.tasks.flatten ++ [c] := by
    change (r.tasks ++ [[c]]).flatten = _
    simp
  refine orderly.edited (f := fun _ s => s) orderly.audience ?_ ?_
    (fun key => Option.map_id'.symm ▸ rfl) (fun _ _ => rfl) (fun _ _ => ⟨rfl, rfl⟩)
    fun _ _ _ => .of_same rfl rfl
  · rw [calls]
    intro m among
    rcases List.mem_append.mp among with old | new
    · exact orderly.waits m old
    · rw [List.mem_singleton.mp new]
      rw [(Call.entry entry).1]
      exact fun l among => absurd among List.not_mem_nil
  · intro key
    have apart : [c].count (.goLive key) = 0 := by
      rw [List.count_eq_zero, List.mem_singleton]
      exact ((Call.entry entry).2 key).symm
    rw [calls, List.count_append, apart]
    exact orderly.once key

theorem Orderly.step (orderly : Orderly serial r) (i : Nat) :
    Orderly serial (r.apply (.step i)) ∧ ∀ key,
      Hub.Flow key r.hub (r.apply (.step i)).hub [] [] := by
  rcases Hub.stepTask_cases r.hub r.tasks i with
    ⟨still, -⟩ | ⟨before, c, after, split, -, hub, left⟩
  · have same : r.apply (.step i) = r := by rw [Rooms.apply, still]
    rw [same]
    refine ⟨orderly, fun key => .of_session (f := id) ?_ (fun _ => ⟨rfl, rfl⟩)
      fun s _ => .of_same rfl rfl⟩
    rw [Option.map_id]
    rfl
  · have silent : ∀ l ∈ Hub.waiting c, l.Silent := orderly.waits c (by rw [split]; simp)
    obtain ⟨audience, waits⟩ := orderly.audience.step c silent
    have once := orderly.once
    rw [split] at once
    have there : (r.apply (.step i)).hub = (c.step r.hub).1 := hub
    have calls : (r.apply (.step i)).tasks.flatten = before ++ (c.step r.hub).2 ++ after := left
    refine orderly.edited (f := fun key => c.edit key) ?_ ?_ ?_ ?_
      (fun key s => (c.edit_keeps key s).1) (fun _ _ => ⟨rfl, rfl⟩)
      fun key s _ => c.edit_flow silent key s
    · rw [there]
      exact audience
    · rw [calls]
      intro m among
      rcases List.mem_append.mp among with among | late
      · rcases List.mem_append.mp among with early | new
        · exact orderly.waits m (by rw [split]; simp [early])
        · exact waits m new
      · exact orderly.waits m (by rw [split]; simp [late])
    · rw [there, calls]
      exact once.step
    · intro key
      rw [there]
      exact Hub.session?_step r.hub c key

theorem received_of_gone {h : Hub} {speaker member : SessionKey} {text : String} {t : Session}
    (there : h.session? member = some t) (gone : t.holder = .nobody) :
    h.received speaker text member = [] := by
  rw [Hub.received, Hub.reaches, there]
  cases h.session? speaker with
  | none => rfl
  | some s => simp [gone]

theorem received_of_unmade {h : Hub} {speaker member : SessionKey} {text : String}
    (unmade : h.session? member = none) : h.received speaker text member = [] := by
  rw [Hub.received, Hub.reaches, unmade]
  cases h.session? speaker with
  | none | some => rfl

theorem Orderly.say (orderly : Orderly serial r) (speaker : SessionKey) (text : String) :
    Orderly serial (r.apply (.say speaker text)) ∧ ∀ key,
      Hub.Flow key r.hub (r.apply (.say speaker text)).hub (r.hub.received speaker text key)
        [] := by
  obtain ⟨-, registry, cast⟩ := Hub.callback_text_frame (orderly.text speaker) text
  have now := Hub.session?_text orderly.once.nodup (orderly.text speaker) text
  refine orderly.edited (orderly.audience.of_eq (congrArg Registry.serial registry)
    (congrArg Registry.listeners registry) cast) orderly.waits ?_ now (fun _ _ => rfl) ?_ ?_
  · intro key
    have live := congrArg Registry.live registry
    change (r.hub.callback speaker (.text text)).1.registry.live.count key + _ ≤ _
    rw [live]
    exact Nat.le_trans (orderly.once key) (Hub.allowance_le key (now key) fun s new => new)
  · exact fun key unmade => ⟨received_of_unmade unmade, rfl⟩
  · intro key t there
    refine ⟨⟨[], by simp, .inl rfl⟩, ?_, ?_⟩
    · exact fun gone => ⟨gone, received_of_gone there gone, rfl⟩
    · intro empty gone
      have none_left : t.queue ++ r.hub.received speaker text key = [] := by
        rw [received_of_gone there gone, List.append_nil]
        exact empty gone
      exact none_left

/-- One event keeps order, and moves each queue on by what it brings and takes. -/
theorem Orderly.apply (orderly : Orderly serial r) (e : Event) :
    Orderly serial (r.apply e) ∧ ∀ member,
      Hub.Flow member r.hub (r.apply e).hub (r.brought member e) (r.taken member e) := by
  cases e with
  | make matched config subprotocol => exact orderly.make matched config subprotocol
  | begin c entry => exact orderly.begin entry
  | step i => exact orderly.step i
  | say speaker text => exact orderly.say speaker text
  | takeQueue key =>
      refine orderly.modify key ?_ ?_ (fun _ _ => rfl) fun s _ => .takeQueue s
      · intro s
        rw [Session.takeQueue]
        cases s.holder with
        | session | writer | nobody => rfl
      · intro s
        rw [Session.takeQueue]
        cases s.holder with
        | session | writer | nobody => rfl
  | read key =>
      have phase (s : Session) : s.receive.1.phase = s.phase
          ∧ s.receive.1.endpoint = s.endpoint := by
        rw [Session.receive]
        cases s.queue with
        | nil | cons => exact ⟨rfl, rfl⟩
      refine orderly.modify key (fun s => (phase s).1) (fun s => (phase s).2) ?_ ?_
      · rintro other (apart | unmade)
        · exact if_neg apart
        · rw [Rooms.taken, unmade]
          split
          · rfl
          · rfl
      · intro s found
        have flow := Session.Flow.receive s (orderly.emptied key s found)
        rw [Rooms.taken, if_pos rfl, found]
        exact flow
  | dropQueue key =>
      exact orderly.modify key (fun s => rfl) (fun s => rfl) (fun _ _ => rfl)
        fun s _ => .dropQueue s
  | requestClose key =>
      exact orderly.modify key (fun s => rfl) (fun s => rfl) (fun _ _ => rfl)
        fun s _ => .of_same rfl rfl

theorem Orderly.run (orderly : Orderly serial r) (events : List Event) :
    Orderly serial (r.run events) ∧ ∀ member, Hub.Flow member r.hub (r.run events).hub
      (r.delivered member events) (r.heard member events) := by
  induction events generalizing r with
  | nil =>
      refine ⟨orderly, fun member => .of_session (f := id) ?_ (fun _ => ⟨rfl, rfl⟩)
        fun s _ => .of_same rfl rfl⟩
      rw [Option.map_id]
      rfl
  | cons e rest ih =>
      obtain ⟨next, moved⟩ := orderly.apply e
      obtain ⟨last, flow⟩ := ih next
      refine ⟨last, fun member => (moved member).trans ?_ (flow member)⟩
      rintro ⟨s, found, gone⟩
      rw [Hub.queue, found]
      exact next.emptied member s found gone

theorem orderly_of_new {h : Hub} (new : h.sessions = []) (empty : h.registry.live = [])
    (silent : ∀ l ∈ h.registry.listeners ++ h.cast, l.Silent) :
    Orderly h.registry.serial ⟨h, []⟩ where
  audience := ⟨rfl, fun l among => silent l (List.mem_append_left _ among),
    fun l among => silent l (List.mem_append_right _ among)⟩
  waits c among := absurd among List.not_mem_nil
  once key := by simp [empty]
  chats key s found := by simp [Hub.session?, new] at found
  emptied key s found := by simp [Hub.session?, new] at found

/-- However members come and go: a text is queued once for each session that it reaches and
changes no other queue, and what has reached a member is what it has read and what waits in its
queue, in the order in which it was said. Only what nobody is left to receive is lost. -/
theorem texts_reach_their_room {h : Hub} (new : h.sessions = []) (empty : h.registry.live = [])
    (silent : ∀ l ∈ h.registry.listeners ++ h.cast, l.Silent) (events : List Event)
    (member : SessionKey) : let r : Rooms := ⟨h, []⟩; let k := (r.run events).hub;
    (∀ speaker text, (k.callback speaker (.text text)).2 = none
        ∧ (k.callback speaker (.text text)).1.session? member
          = (k.session? member).map fun t => { t with
              queue := t.queue ++ if k.reaches speaker text member then [.text text] else []
              heard := if member = speaker then t.heard ++ [.text text] else t.heard })
      ∧ ∀ t, k.session? member = some t → ∃ lost,
        r.delivered member events = r.heard member events ++ t.queue ++ lost
          ∧ (t.holder ≠ .nobody → lost = []) := by
  intro r k
  obtain ⟨orderly, flow⟩ := (orderly_of_new new empty silent).run events
  refine ⟨?_, ?_⟩
  · intro speaker text
    exact ⟨(Hub.callback_text_frame (orderly.text speaker) text).1,
      Hub.session?_text orderly.once.nodup (orderly.text speaker) text member⟩
  · intro t there
    obtain ⟨⟨lost, balance, kept⟩, -⟩ := flow member
    have before : h.queue member = [] := by simp [Hub.queue, Hub.session?, new]
    have after : k.queue member = t.queue := by rw [Hub.queue, there]; rfl
    refine ⟨lost, ?_, ?_⟩
    · rw [List.append_assoc, ← after]
      exact (List.nil_append _).symm.trans (before ▸ balance)
    · intro held
      rcases kept with none_lost | ⟨t', there', gone⟩
      · exact none_lost
      · have same : t' = t := Option.some.inj (there'.symm.trans there)
        exact absurd (same ▸ gone) held

def joining (task : Nat) (path : List Char) (ceiling : Nat) : List Event :=
  .make { spec := .below ['/', 'c'], path, covered := ['/', 'c'] }
      { maxTextMessageSize := ceiling } none
    :: .begin (.openSession task) rfl :: List.replicate 5 (.step task)

/-- Two members of a room, a third whose ceiling is low, and a session of another room. The second
leaves while the first is still talking. -/
def busyRoom : List Event :=
  joining 0 ['/', 'c', '/', 'a'] 100 ++ joining 1 ['/', 'c', '/', 'a'] 100
    ++ joining 2 ['/', 'c', '/', 'a'] 2 ++ joining 3 ['/', 'c', '/', 'b'] 100
    ++ [.say 0 "hello", .say 3 "ho", .say 1 "hi", .read 1, .say 2 "oh",
      .begin (.closeSession 1) rfl, .step 4, .say 0 "bye"]

theorem texts_reach_a_busy_room : let r : Rooms := ⟨{}, []⟩; let k := (r.run busyRoom).hub;
    (({} : Hub).sessions = [] ∧ ({} : Hub).registry.live = []
        ∧ ∀ l ∈ ({} : Hub).registry.listeners ++ ({} : Hub).cast, l.Silent)
      ∧ r.heard 1 busyRoom = [.text "hello"]
      ∧ (∃ t lost, k.session? 1 = some t ∧ t.queue = [.text "oh"]
        ∧ r.delivered 1 busyRoom = r.heard 1 busyRoom ++ t.queue ++ lost ∧ lost = [])
      ∧ r.delivered 2 busyRoom = [.text "hi"] ∧ r.delivered 3 busyRoom = [] := by
  intro r k
  have silent : ∀ l ∈ ({} : Hub).registry.listeners ++ ({} : Hub).cast, l.Silent := by
    intro l among
    exact absurd among List.not_mem_nil
  have waits : (k.session? 1).map (fun t => (t.queue, t.holder))
      = some ([.text "oh"], .session) := by decide +kernel
  obtain ⟨t, there, pair⟩ := Option.map_eq_some_iff.mp waits
  obtain ⟨queue, holder⟩ := Prod.mk.inj pair
  obtain ⟨lost, balance, kept⟩ := (texts_reach_their_room rfl rfl silent busyRoom 1).2 t there
  exact ⟨⟨rfl, rfl, silent⟩, by decide +kernel,
    ⟨t, lost, there, queue, balance, kept (by rw [holder]; simp)⟩, by decide +kernel,
    by decide +kernel⟩

end Rooms
end Gateway
