import Gateway.Proofs.Connection.Moves
import Gateway.Proofs.Connection.Serving

/-!
The messages of a connection: which have come in, which the session has accepted, and how far they
are. One step of the pump passes them on in their order, and what it writes last is its farewell.
-/
namespace Gateway.Connection

open Session (Message)

def Pump.Stage.talks : Pump.Stage → Bool
  | .starting | .checking | .waiting => true
  | .leaving _ | .unregistering | .done => false

namespace Serving

def takes (s : Serving) : Turn → List Message
  | .own choice =>
    if s.pump.calls = [] ∧ s.pump.stage = .waiting then (Pump.Choice.message? choice).toList else []
  | .elsewhere _ | .wire _ => []

def taken (s : Serving) : List Turn → List Message
  | [] => []
  | t :: rest => s.takes t ++ (s.turn t).taken rest

/-- What the pump itself does to the queue of its session in a turn. -/
def queueEdit (s : Serving) : Turn → Session → Session
  | .own choice => if s.pump.calls = [] then s.pump.queueEdit choice else id
  | .elsewhere _ | .wire _ => id

/-- The messages that a session accepts in the course of some turns, whoever sends them. -/
inductive Accepts (key : SessionKey) : Serving → List Turn → List Message → Prop
  | nil {s : Serving} : Accepts key s [] []
  | cons {s : Serving} {t : Turn} {rest : List Turn} {a b : Session} {ms more : List Message} :
      s.hub.session? key = some a → (s.turn t).hub.session? key = some b →
      (s.queueEdit t a).Accepts ms b → Accepts key (s.turn t) rest more →
      Accepts key s (t :: rest) (ms ++ more)

inductive Stopped (start : Serving) (turns : List Turn) (exit : Exit) : Prop
  | intro {before after : List Turn} {choice : Option Pump.Choice} {t : Session} :
      turns = before ++ .own choice :: after → (start.run before).pump.calls = [] →
      (start.run before).hub.session? (start.run before).pump.key = some t →
      (start.run before).pump.Ends t choice exit → Stopped start turns exit

inductive Left (start : Serving) (turns : List Turn) (exit : Exit) : List Outgoing → Prop
  | intro {before after : List Turn} {choice : Option Pump.Choice} :
      turns = before ++ .own choice :: after → (start.run before).pump.calls = [] →
      (start.run before).pump.stage = .leaving exit →
      Left start turns exit ((start.run before).pump.farewell exit)

/-! ### One turn more -/

variable {key : SessionKey} {start : Serving} {turns : List Turn} {turn : Turn} {exit : Exit}
  {farewell : List Outgoing}

theorem run_concat (s : Serving) (turns : List Turn) (t : Turn) :
    s.run (turns ++ [t]) = (s.run turns).turn t := by
  induction turns generalizing s with
  | nil => rfl
  | cons first rest ih => exact ih (s.turn first)

theorem taken_concat (s : Serving) (turns : List Turn) (t : Turn) :
    s.taken (turns ++ [t]) = s.taken turns ++ (s.run turns).takes t := by
  induction turns generalizing s with
  | nil => exact List.append_nil _
  | cons first rest ih => rw [List.cons_append, taken, taken, ih, List.append_assoc, run]

theorem Accepts.concat {accepted ms : List Message} {a b : Session}
    (h : Accepts key start turns accepted) (found : (start.run turns).hub.session? key = some a)
    (now : ((start.run turns).turn turn).hub.session? key = some b)
    (more : ((start.run turns).queueEdit turn a).Accepts ms b) :
    Accepts key start (turns ++ [turn]) (accepted ++ ms) := by
  induction h with
  | nil =>
      have last := Accepts.cons found now more .nil
      rwa [List.append_nil] at last
  | cons found' now' more' _ ih =>
      rw [List.append_assoc]
      exact .cons found' now' more' (ih found now more)

theorem Stopped.later (h : Stopped start turns exit) (turn : Turn) :
    Stopped start (turns ++ [turn]) exit := by
  obtain ⟨rfl, idle, found, ends⟩ := h
  exact ⟨by rw [List.append_assoc]; rfl, idle, found, ends⟩

theorem Left.later (h : Left start turns exit farewell) (turn : Turn) :
    Left start (turns ++ [turn]) exit farewell := by
  obtain ⟨rfl, idle, leaving⟩ := h
  exact ⟨by rw [List.append_assoc]; rfl, idle, leaving⟩

/-! ### How far the messages are -/

/-- The pump serves a session, or is about to ask for its queue. -/
structure Attends (key : SessionKey) (config : Config.SessionConfig) (s : Serving) (t : Session) :
    Prop where
  serves : s.pump.key = key
  fresh : s.pump.assembler = .new config.maxTextMessageSize
  found : s.hub.session? key = some t
  config : t.config = config
  held : t.holder = .session ↔ s.pump.stage = .starting

/-- As long as the pump goes on, all that came in has been handed on, and all that was accepted has
been written or waits in the queue. -/
structure Talks (t₀ : Session) (start : Serving) (turns : List Turn) (t : Session)
    (accepted : List Message) : Prop where
  handed : t.handed = t₀.handed ++ start.taken turns
  within : ∀ m ∈ start.taken turns, m.size ≤ Session.messageCeiling t₀.config m
  queue : t₀.queue ++ accepted
    = (start.run turns).pump.written.filterMap Outgoing.message? ++ t.queue
  unclosed : ∀ o ∈ (start.run turns).pump.written, o.isClose = false

/-- Of what came in, all has been handed on, but for a last message above its ceiling. What has been
written is a beginning of what was queued and accepted, with the farewell behind it. -/
structure Passed (t₀ : Session) (start : Serving) (turns : List Turn) (t : Session)
    (accepted : List Message) (farewell : List Outgoing) : Prop where
  handed : ∃ handed refused, t.handed = t₀.handed ++ handed ∧ start.taken turns = handed ++ refused
    ∧ (∀ m ∈ handed, m.size ≤ Session.messageCeiling t₀.config m)
    ∧ (refused = [] ∨ ∃ m, refused = [m] ∧ Session.messageCeiling t₀.config m < m.size)
  written : (start.run turns).pump.written.filterMap Outgoing.message? <+: t₀.queue ++ accepted
  last : ∃ front, (start.run turns).pump.written = front ++ farewell
    ∧ ∀ o ∈ front, o.isClose = false

/-- The farewell goes with the reason for which the pump has stopped, once it has left. -/
inductive Parting (start : Serving) (turns : List Turn) : Pump.Stage → List Outgoing → Prop
  | talking {stage : Pump.Stage} : stage.talks = true → Parting start turns stage []
  | leaving {exit : Exit} : Stopped start turns exit → Parting start turns (.leaving exit) []
  | left {stage : Pump.Stage} {exit : Exit} {farewell : List Outgoing} :
      stage = .unregistering ∨ stage = .done → Stopped start turns exit →
      Left start turns exit farewell → Parting start turns stage farewell

structure Flow (t₀ : Session) (start : Serving) (turns : List Turn) (t : Session)
    (accepted : List Message) (farewell : List Outgoing) : Prop where
  passed : Passed t₀ start turns t accepted farewell
  parting : Parting start turns (start.run turns).pump.stage farewell
  talks : (start.run turns).pump.stage.talks = true → Talks t₀ start turns t accepted

structure Traffic (key : SessionKey) (t₀ : Session) (start : Serving) (turns : List Turn)
    (t : Session) (accepted : List Message) (farewell : List Outgoing) : Prop where
  attends : Attends key t₀.config (start.run turns) t
  accepts : start.Accepts key turns accepted
  flow : Flow t₀ start turns t accepted farewell

variable {t₀ t u t' : Session} {accepted ms : List Message} {out : List Outgoing}

theorem Talks.passed (talks : Talks t₀ start turns t accepted) :
    Passed t₀ start turns t accepted [] where
  handed := ⟨_, [], talks.handed, (List.append_nil _).symm, talks.within, .inl rfl⟩
  written := by
    rw [talks.queue]
    exact List.prefix_append _ _
  last := ⟨_, (List.append_nil _).symm, talks.unclosed⟩

theorem Parting.later {stage : Pump.Stage} (parting : Parting start turns stage farewell)
    (turn : Turn) : Parting start (turns ++ [turn]) stage farewell := by
  cases parting with
  | talking talks => exact .talking talks
  | leaving stopped => exact .leaving (stopped.later turn)
  | left gone stopped left => exact .left gone (stopped.later turn) (left.later turn)

theorem handed_of_feeds (fed : t.Feeds t') : t'.handed = t.handed := by
  rw [Session.handed, fed.heard]
  rfl

theorem Talks.step (talks : Talks t₀ start turns t accepted) (out : List Outgoing)
    (fed : u.Feeds t') (gains : u.Gains ms t')
    (written : (start.run (turns ++ [turn])).pump.written = (start.run turns).pump.written ++ out)
    (handed : u.handed = t.handed ++ (start.run turns).takes turn)
    (within : ∀ m ∈ (start.run turns).takes turn, m.size ≤ Session.messageCeiling t₀.config m)
    (queue : t.queue = out.filterMap Outgoing.message? ++ u.queue)
    (unclosed : ∀ o ∈ out, o.isClose = false) :
    Talks t₀ start (turns ++ [turn]) t' (accepted ++ ms) where
  handed := by
    rw [handed_of_feeds fed, handed, talks.handed, taken_concat, List.append_assoc]
  within := by
    rw [taken_concat]
    intro m among
    rcases List.mem_append.mp among with old | new
    · exact talks.within m old
    · exact within m new
  queue := by
    rw [written, List.filterMap_append, gains.queue, ← List.append_assoc, talks.queue, queue,
      List.append_assoc, List.append_assoc, List.append_assoc]
  unclosed := by
    rw [written]
    intro o among
    rcases List.mem_append.mp among with old | new
    · exact talks.unclosed o old
    · exact unclosed o new

theorem Passed.step (passed : Passed t₀ start turns t accepted farewell) (ms : List Message)
    (out : List Outgoing) (fed : u.Feeds t')
    (written : (start.run (turns ++ [turn])).pump.written = (start.run turns).pump.written ++ out)
    (handed : u.handed = t.handed) (takes : (start.run turns).takes turn = [])
    (silent : out.filterMap Outgoing.message? = []) :
    Passed t₀ start (turns ++ [turn]) t' (accepted ++ ms) (farewell ++ out) where
  handed := by
    rw [handed_of_feeds fed, handed, taken_concat, takes, List.append_nil]
    exact passed.handed
  written := by
    rw [written, List.filterMap_append, silent, List.append_nil, ← List.append_assoc]
    exact passed.written.trans (List.prefix_append _ _)
  last := by
    obtain ⟨front, split, unclosed⟩ := passed.last
    refine ⟨front, ?_, unclosed⟩
    rw [written, split, List.append_assoc]

/-! ### The pump's own turns -/

variable {choice : Option Pump.Choice}

/-- The pump goes on, or has just stopped. -/
def Onward (start : Serving) (turns : List Turn) : Prop :=
  (start.run turns).pump.stage.talks = true
    ∨ ∃ exit, Stopped start turns exit ∧ (start.run turns).pump.stage = .leaving exit

theorem Onward.parting (onward : start.Onward turns) :
    Parting start turns (start.run turns).pump.stage [] := by
  rcases onward with talks | ⟨exit, stopped, leaving⟩
  · exact .talking talks
  · rw [leaving]
    exact .leaving stopped

theorem Talks.flow (talks : Talks t₀ start turns t accepted) (onward : start.Onward turns) :
    Flow t₀ start turns t accepted [] :=
  ⟨talks.passed, onward.parting, fun _ => talks⟩

theorem takes_of_waiting (calls : start.pump.calls = []) (waiting : start.pump.stage = .waiting)
    (choice : Option Pump.Choice) :
    start.takes (.own choice) = (Pump.Choice.message? choice).toList :=
  if_pos ⟨calls, waiting⟩

theorem takes_of_other (s : Serving) (other : s.pump.stage ≠ .waiting)
    (choice : Option Pump.Choice) : s.takes (.own choice) = [] :=
  if_neg fun both => other both.2

theorem Flow.opens (flow : Flow t₀ start turns t accepted farewell)
    (starting : (start.run turns).pump.stage = .starting) (holder : t.holder = .session)
    (written : (start.run (turns ++ [.own choice])).pump.written = (start.run turns).pump.written)
    (onward : start.Onward (turns ++ [.own choice]))
    (fed : ((Session.hear .opened ∘ fun s => s.takeQueue.1) t).Feeds t')
    (gains : ((Session.hear .opened ∘ fun s => s.takeQueue.1) t).Gains ms t') :
    Flow t₀ start (turns ++ [.own choice]) t' (accepted ++ ms) [] := by
  have takes := takes_of_other (start.run turns) (by simp [starting]) choice
  have talks := flow.talks (by rw [starting]; rfl)
  rw [Pump.opened_eq holder] at fed gains
  refine (talks.step [] fed gains (written.trans (List.append_nil _).symm) ?_ ?_ rfl
    (by simp)).flow onward
  · rw [takes]
    exact Session.handed_hear .opened t
  · rw [takes]
    simp

theorem Flow.hands {m : Message} (flow : Flow t₀ start turns t accepted farewell)
    (calls : (start.run turns).pump.calls = [])
    (waiting : (start.run turns).pump.stage = .waiting)
    (comes : Pump.Choice.message? choice = some m)
    (within : m.size ≤ Session.messageCeiling t₀.config m)
    (written : (start.run (turns ++ [.own choice])).pump.written = (start.run turns).pump.written)
    (onward : start.Onward (turns ++ [.own choice]))
    (fed : (Session.hear m.callback t).Feeds t') (gains : (Session.hear m.callback t).Gains ms t') :
    Flow t₀ start (turns ++ [.own choice]) t' (accepted ++ ms) [] := by
  have takes := takes_of_waiting calls waiting choice
  rw [comes] at takes
  have talks := flow.talks (by rw [waiting]; rfl)
  refine (talks.step [] fed gains (written.trans (List.append_nil _).symm) ?_ ?_ rfl
    (by simp)).flow onward
  · rw [takes, Session.handed_hear, m.message?_callback]
  · rw [takes]
    simpa using within

theorem Flow.writes {m : Message} {rest : List Message}
    (flow : Flow t₀ start turns t accepted farewell) (calls : (start.run turns).pump.calls = [])
    (waiting : (start.run turns).pump.stage = .waiting) (outbound : choice = some .outbound)
    (queue : t.queue = m :: rest)
    (written : (start.run (turns ++ [.own choice])).pump.written
      = (start.run turns).pump.written ++ [.message m])
    (onward : start.Onward (turns ++ [.own choice])) (fed : t.receive.1.Feeds t')
    (gains : t.receive.1.Gains ms t') :
    Flow t₀ start (turns ++ [.own choice]) t' (accepted ++ ms) [] := by
  have takes := takes_of_waiting calls waiting choice
  rw [outbound] at takes
  have talks := flow.talks (by rw [waiting]; rfl)
  rw [Session.receive_of_queue queue] at fed gains
  refine (talks.step _ fed gains written ?_ ?_ queue (by simp [Outgoing.isClose])).flow onward
  · rw [outbound, takes]
    exact (List.append_nil _).symm
  · rw [outbound, takes]
    exact fun m among => absurd among List.not_mem_nil

theorem Flow.goesOn {pongs : List (List UInt8)} (flow : Flow t₀ start turns t accepted farewell)
    (calls : (start.run turns).pump.calls = [])
    (turn : (start.run turns).pump.stage = .checking ∨ (start.run turns).pump.stage = .waiting)
    (quiet : (start.run turns).pump.stage = .waiting → Pump.Choice.message? choice = none)
    (written : (start.run (turns ++ [.own choice])).pump.written
      = (start.run turns).pump.written ++ pongs.map .pong)
    (onward : start.Onward (turns ++ [.own choice])) (fed : t.Feeds t') (gains : t.Gains ms t') :
    Flow t₀ start (turns ++ [.own choice]) t' (accepted ++ ms) [] := by
  obtain ⟨talking, takes⟩ : (start.run turns).pump.stage.talks = true
      ∧ (start.run turns).takes (.own choice) = [] := by
    rcases turn with checking | waiting
    · exact ⟨by rw [checking]; rfl, takes_of_other _ (by simp [checking]) choice⟩
    · refine ⟨by rw [waiting]; rfl, ?_⟩
      rw [takes_of_waiting calls waiting, quiet waiting]
      rfl
  refine ((flow.talks talking).step _ fed gains written ?_ ?_ ?_ ?_).flow onward
  · rw [takes, List.append_nil]
  · rw [takes]
    exact fun m among => absurd among List.not_mem_nil
  · simp [List.filterMap_map, Function.comp_def, Outgoing.message?]
  · simp [Outgoing.isClose]

theorem Flow.stops (flow : Flow t₀ start turns t accepted farewell) (fed : u.Feeds t')
    (calls : (start.run turns).pump.calls = []) (config : t.config = t₀.config)
    (turn : (start.run turns).pump.stage = .checking ∨ (start.run turns).pump.stage = .waiting)
    (refuses : (start.run turns).pump.Refuses t choice)
    (stopped : Stopped start (turns ++ [.own choice]) exit)
    (written : (start.run (turns ++ [.own choice])).pump.written = (start.run turns).pump.written)
    (next : (start.run (turns ++ [.own choice])).pump.stage = .leaving exit)
    (handed : u.handed = t.handed) :
    Flow t₀ start (turns ++ [.own choice]) t' (accepted ++ ms) [] := by
  obtain ⟨talking, only⟩ : (start.run turns).pump.stage.talks = true
      ∧ ((start.run turns).takes (.own choice) = []
        ∨ ∃ m, (start.run turns).takes (.own choice) = [m]
          ∧ Session.messageCeiling t₀.config m < m.size) := by
    rcases turn with checking | waiting
    · exact ⟨by rw [checking]; rfl, .inl (takes_of_other _ (by simp [checking]) choice)⟩
    · refine ⟨by rw [waiting]; rfl, ?_⟩
      rw [takes_of_waiting calls waiting, ← config]
      cases comes : Pump.Choice.message? choice with
      | none => exact .inl rfl
      | some m => exact .inr ⟨m, rfl, refuses waiting m comes⟩
  have talks := flow.talks talking
  refine ⟨⟨⟨start.taken turns, (start.run turns).takes (.own choice), ?_, ?_, talks.within, only⟩,
    ?_, ?_⟩, ?_, ?_⟩
  · rw [handed_of_feeds fed, handed, talks.handed]
  · exact taken_concat start turns (.own choice)
  · rw [written, ← List.append_assoc, talks.queue, List.append_assoc]
    exact List.prefix_append _ _
  · rw [written]
    exact ⟨_, (List.append_nil _).symm, talks.unclosed⟩
  · rw [next]
    exact .leaving stopped
  · rw [next]
    exact fun talks => absurd talks Bool.false_ne_true

theorem Flow.leaves (flow : Flow t₀ start turns t accepted farewell)
    (calls : (start.run turns).pump.calls = [])
    (leaving : (start.run turns).pump.stage = .leaving exit)
    (written : (start.run (turns ++ [.own choice])).pump.written
      = (start.run turns).pump.written ++ (start.run turns).pump.farewell exit)
    (next : (start.run (turns ++ [.own choice])).pump.stage = .unregistering)
    (fed : (Session.hear .closed t).Feeds t') :
    Flow t₀ start (turns ++ [.own choice]) t' (accepted ++ ms)
      ((start.run turns).pump.farewell exit) := by
  have takes := takes_of_other (start.run turns) (by simp [leaving]) choice
  have parting := flow.parting
  rw [leaving] at parting
  cases parting with
  | talking talks => exact absurd talks Bool.false_ne_true
  | left gone => exact absurd gone (by simp)
  | leaving stopped =>
      refine ⟨flow.passed.step ms _ fed written ?_ takes (Pump.farewell_silent _ exit), ?_, ?_⟩
      · rw [Session.handed_hear]
        exact List.append_nil _
      · rw [next]
        exact .left (.inl rfl) (stopped.later _) ⟨rfl, calls, leaving⟩
      · rw [next]
        exact fun talks => absurd talks Bool.false_ne_true

theorem Flow.rests (flow : Flow t₀ start turns t accepted farewell) (fed : u.Feeds t')
    (gone : (start.run turns).pump.stage = .unregistering ∨ (start.run turns).pump.stage = .done)
    (written : (start.run (turns ++ [.own choice])).pump.written = (start.run turns).pump.written)
    (next : (start.run (turns ++ [.own choice])).pump.stage = .done)
    (handed : u.handed = t.handed) :
    Flow t₀ start (turns ++ [.own choice]) t' (accepted ++ ms) farewell := by
  have other : (start.run turns).pump.stage ≠ .waiting := by
    rcases gone with unregistering | done
    · simp [unregistering]
    · simp [done]
  have passed := flow.passed.step ms [] fed
    (written.trans (List.append_nil _).symm) handed (takes_of_other _ other choice) rfl
  rw [List.append_nil] at passed
  refine ⟨passed, ?_, ?_⟩
  · have parting := flow.parting
    rw [next]
    generalize (start.run turns).pump.stage = stage at gone parting
    cases parting with
    | talking talks =>
        rcases gone with rfl | rfl
        · exact absurd talks Bool.false_ne_true
        · exact absurd talks Bool.false_ne_true
    | leaving => exact absurd gone (by simp)
    | left _ stopped left => exact .left (.inr rfl) (stopped.later _) (left.later _)
  · rw [next]
    exact fun talks => absurd talks Bool.false_ne_true

theorem Flow.moves {g : Session → Session} (flow : Flow t₀ start turns t accepted farewell)
    (attends : Attends key t₀.config (start.run turns) t)
    (calls : (start.run turns).pump.calls = [])
    (moves : Pump.Moves t (start.run turns).pump (start.run (turns ++ [.own choice])).pump choice g)
    (fed : (g t).Feeds t') (gains : (g t).Gains ms t') :
    ∃ farewell', Flow t₀ start (turns ++ [.own choice]) t' (accepted ++ ms) farewell' := by
  have stopped {exit : Exit} (ends : (start.run turns).pump.Ends t choice exit) :
      Stopped start (turns ++ [.own choice]) exit := by
    refine ⟨rfl, calls, ?_, ends⟩
    rw [attends.serves, attends.found]
  cases moves with
  | opens starting holder written next =>
      exact ⟨_, flow.opens starting holder written (.inl (by rw [next]; rfl)) fed gains⟩
  | failsToOpen starting holder ends written next =>
      exact ⟨_, flow.opens starting holder written (.inr ⟨_, stopped ends, next⟩) fed gains⟩
  | turnsAway starting holder => exact absurd (attends.held.mpr starting) holder
  | hands waiting comes within written next =>
      have onward : start.Onward (turns ++ [.own choice]) := by
        rcases next with checking | ⟨exit, ends, leaving⟩
        · exact .inl (by rw [checking]; rfl)
        · exact .inr ⟨exit, stopped ends, leaving⟩
      rw [attends.config] at within
      exact ⟨_, flow.hands calls waiting comes within written onward fed gains⟩
  | writes waiting outbound queue written next =>
      exact ⟨_, flow.writes calls waiting outbound queue written (.inl (by rw [next]; rfl)) fed
        gains⟩
  | goesOn turn quiet written next =>
      have onward : start.Onward (turns ++ [.own choice]) := by
        rcases next with checking | waiting
        · exact .inl (by rw [checking]; rfl)
        · exact .inl (by rw [waiting]; rfl)
      exact ⟨_, flow.goesOn calls turn quiet written onward fed gains⟩
  | stops turn refuses ends written next _ _ handed =>
      exact ⟨_, flow.stops fed calls attends.config turn refuses (stopped ends) written next handed⟩
  | leaves leaving written next => exact ⟨_, flow.leaves calls leaving written next fed⟩
  | unregisters unregistering written next =>
      exact ⟨_, flow.rests fed (.inl unregistering) written next rfl⟩
  | rests done same =>
      exact ⟨_, flow.rests fed (.inr done) (by rw [same]) (by rw [same, done]) rfl⟩

theorem Traffic.own (traffic : Traffic key t₀ start turns t accepted farewell)
    (calls : (start.run turns).pump.calls = []) (choice : Option Pump.Choice) :
    ∃ t' ms farewell', Traffic key t₀ start (turns ++ [.own choice]) t' (accepted ++ ms) farewell'
      ∧ (start.run (turns ++ [.own choice])).pump.stage ≠ .starting := by
  obtain ⟨attends, accepted_so_far, flow⟩ := traffic
  have there : (start.run turns).hub.session? (start.run turns).pump.key = some t := by
    rw [attends.serves, attends.found]
  have fresh : (start.run turns).pump.assembler = .new t.config.maxTextMessageSize := by
    rw [attends.fresh, attends.config]
  have does := Pump.step_does there calls fresh choice
  have turned := turn_own_idle calls choice
  generalize (start.run turns).pump.step (start.run turns).hub choice = result at does turned
  obtain ⟨k, q⟩ := result
  obtain ⟨same_key, same_assembler, g, moves, fed, own⟩ := does
  obtain ⟨kept, served, started⟩ := moves.keeps attends.held
  have edited : ((start.run turns).hub.modify (start.run turns).pump.key g).session? key
      = some (g t) := by
    rw [Hub.session?_modify, if_pos attends.serves, attends.found]
    rfl
  obtain ⟨t', now, feeds⟩ := fed key (g t) edited served
  obtain ⟨ms, accepts⟩ := feeds.accepts
  have queued : ((start.run turns).queueEdit (.own choice) t).Accepts ms t' := by
    rw [queueEdit, if_pos calls]
    exact own.trans accepts
  have pump : (start.run (turns ++ [.own choice])).pump = q := by rw [run_concat, turned]
  have hub : ((start.run turns).turn (.own choice)).hub = k := by rw [turned]
  dsimp only at same_key same_assembler moves now
  rw [← pump] at same_key same_assembler moves started
  rw [← hub] at now
  obtain ⟨farewell', flow'⟩ := flow.moves attends calls moves feeds accepts.gains
  refine ⟨t', ms, farewell', ⟨⟨same_key.trans attends.serves,
    same_assembler.trans attends.fresh, ?_, ?_, ?_⟩,
    accepted_so_far.concat attends.found now queued, flow'⟩, started⟩
  · rw [run_concat]
    exact now
  · rw [accepts.gains.config, kept, attends.config]
  · rw [accepts.gains.holder]
    exact ⟨fun holder => absurd holder served, fun starting => absurd starting started⟩

end Serving
end Gateway.Connection
