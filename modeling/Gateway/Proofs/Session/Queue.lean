import Gateway.Session.Basic
import Mathlib.Data.List.Basic

/-!
The queue of a session: one send, what goes in and out between two moments, and any course of
sending, receiving and closing. What a send answers is settled by what has happened before: whether
the session has been closed, whether the queue has been let go, and how much of what was accepted is
still to be received.
-/
namespace Gateway.Session

variable {s t u : Session} {m : Message}

/-! ### One send -/

theorem le_sendLimit_iff (c : Config.SessionConfig) (m : Message) (n : Nat) :
    n ≤ sendLimit c m
      ↔ n ≤ messageCeiling c m ∧ (c.autoFragment = false → n ≤ c.maxFrameSize) := by
  unfold sendLimit
  cases c.autoFragment with
  | true => simp only [if_true, reduceCtorEq, false_implies, and_true]
  | false => simp only [Bool.false_eq_true, if_false, true_implies, Nat.le_min]

theorem sendError?_eq_none_iff (s : Session) (m : Message) : s.sendError? m = none
    ↔ m.size ≤ sendLimit s.config m ∧ s.phase ≠ .closed ∧ s.holder ≠ .nobody
      ∧ s.queue.length < queueCapacity := by
  rw [Session.sendError?]
  by_cases large : sendLimit s.config m < m.size
  · simp [large, Nat.not_le.mpr large]
  · by_cases closed : s.phase = .closed
    · simp [large, closed]
    · by_cases gone : s.holder = .nobody
      · simp [large, closed, gone]
      · by_cases full : queueCapacity ≤ s.queue.length
        · simp [large, closed, gone, full]
        · simp [large, closed, gone, full, Nat.not_lt.mp large, Nat.not_le.mp full]

theorem send_eq_of_error {e : Error} (refused : s.sendError? m = some e) :
    s.send m = (s, .error e) := by
  unfold send
  rw [refused]

theorem send_eq_of_accepted (accepted : s.sendError? m = none) :
    s.send m = ({ s with queue := s.queue ++ [m] }, .ok ()) := by
  unfold send
  rw [accepted]

theorem send_of_error {e : Error} (refused : s.sendError? m = some e) : (s.send m).1 = s := by
  rw [send_eq_of_error refused]

theorem send_of_accepted (accepted : s.sendError? m = none) :
    (s.send m).1 = { s with queue := s.queue ++ [m] } := by
  rw [send_eq_of_accepted accepted]

/-- What a session accepts: it is not closed, there is somebody to read its queue, the queue has
room, and the message is within the limit for sending. -/
theorem send_ok_iff : (s.send m).2 = .ok () ↔ m.size ≤ sendLimit s.config m ∧ s.phase ≠ .closed
    ∧ s.holder ≠ .nobody ∧ s.queue.length < queueCapacity := by
  rw [← sendError?_eq_none_iff]
  cases error : s.sendError? m with
  | none => simp only [send_eq_of_accepted error]
  | some e => simp only [send_eq_of_error error, reduceCtorEq]

theorem send_of_ok (accepted : (s.send m).2 = .ok ()) :
    (s.send m).1 = { s with queue := s.queue ++ [m] } := by
  rw [send_ok_iff, ← sendError?_eq_none_iff] at accepted
  exact send_of_accepted accepted

theorem send_of_large (large : sendLimit s.config m < m.size) :
    s.send m = (s, .error (.messageTooLarge (sendLimit s.config m))) := by
  apply send_eq_of_error
  unfold sendError?
  rw [if_pos large]

theorem send_of_shut (fits : m.size ≤ sendLimit s.config m)
    (shut : s.phase = .closed ∨ s.holder = .nobody) : s.send m = (s, .error .closed) := by
  apply send_eq_of_error
  unfold sendError?
  rw [if_neg (Nat.not_lt.mpr fits)]
  by_cases closed : s.phase = .closed
  · rw [if_pos closed]
  · rw [if_neg closed, if_pos (shut.resolve_left closed)]

theorem send_of_full (fits : m.size ≤ sendLimit s.config m)
    (served : ¬(s.phase = .closed ∨ s.holder = .nobody))
    (full : queueCapacity ≤ s.queue.length) :
    s.send m = (s, .error (.queueFull queueCapacity)) := by
  obtain ⟨active, held⟩ := not_or.mp served
  apply send_eq_of_error
  unfold sendError?
  rw [if_neg (Nat.not_lt.mpr fits), if_neg active, if_neg held, if_pos full]

/-! ### One queue between two moments -/

/-- What went in and out of a queue. Only what nobody is left to receive is lost. -/
structure Flow (s t : Session) (arrived taken : List Message) : Prop where
  balance : ∃ lost, s.queue ++ arrived = taken ++ (t.queue ++ lost)
    ∧ (lost = [] ∨ t.holder = .nobody)
  shut : s.holder = .nobody → t.holder = .nobody ∧ arrived = [] ∧ taken = []
  empty : (s.holder = .nobody → s.queue = []) → t.holder = .nobody → t.queue = []

theorem Flow.of_same (queue : t.queue = s.queue) (holder : t.holder = s.holder) :
    Flow s t [] [] where
  balance := ⟨[], by rw [queue]; simp, .inl rfl⟩
  shut gone := ⟨holder.trans gone, rfl, rfl⟩
  empty still gone := by rw [queue]; exact still (holder.symm.trans gone)

theorem Flow.dropQueue (s : Session) : Flow s s.dropQueue [] [] where
  balance := ⟨s.queue, by simp [Session.dropQueue], .inr rfl⟩
  shut _ := ⟨rfl, rfl, rfl⟩
  empty _ _ := rfl

theorem Flow.takeQueue (s : Session) : Flow s s.takeQueue.1 [] [] := by
  cases holder : s.holder with
  | session =>
      rw [Session.takeQueue, holder]
      exact ⟨⟨[], by simp, .inl rfl⟩, fun gone => absurd (holder.symm.trans gone) (by simp),
        fun _ gone => absurd gone (by simp)⟩
  | writer | nobody =>
      rw [Session.takeQueue, holder]
      exact .of_same rfl rfl

theorem Flow.receive (s : Session) (emptied : s.holder = .nobody → s.queue = []) :
    Flow s s.receive.1 [] s.receive.2.toList := by
  cases waiting : s.queue with
  | nil =>
      rw [Session.receive, waiting]
      exact .of_same rfl rfl
  | cons m rest =>
      have held : s.holder ≠ .nobody := fun gone => by
        rw [emptied gone] at waiting
        exact absurd waiting (by simp)
      rw [Session.receive, waiting]
      exact ⟨⟨[], by simp [waiting], .inl rfl⟩, fun gone => absurd gone held,
        fun _ gone => absurd gone held⟩

theorem Flow.send_ok (accepted : (s.send m).2 = .ok ()) : Flow s (s.send m).1 [m] [] := by
  have held : s.holder ≠ .nobody := (send_ok_iff.mp accepted).2.2.1
  rw [send_of_ok accepted]
  constructor
  · exact ⟨[], (List.append_nil _).symm, .inl rfl⟩
  · exact fun gone => absurd gone held
  · exact fun _ gone => absurd gone held

/-- What goes in and out before and after a moment goes in and out over both. Behind the moment
nothing moves if the queue was gone by then. -/
theorem balance_trans {gone gone' : Prop}
    {queue mid last arrived arrived' taken taken' : List Message}
    (before : ∃ lost, queue ++ arrived = taken ++ (mid ++ lost) ∧ (lost = [] ∨ gone))
    (after : ∃ lost, mid ++ arrived' = taken' ++ (last ++ lost) ∧ (lost = [] ∨ gone'))
    (emptied : gone → mid = []) (shut : gone → gone' ∧ arrived' = [] ∧ taken' = []) :
    ∃ lost, queue ++ (arrived ++ arrived') = taken ++ taken' ++ (last ++ lost)
      ∧ (lost = [] ∨ gone') := by
  obtain ⟨lost, balance, kept⟩ := before
  obtain ⟨lost', balance', kept'⟩ := after
  rcases kept with rfl | dropped
  · refine ⟨lost', ?_, kept'⟩
    rw [← List.append_assoc, balance, List.append_nil, List.append_assoc, balance',
      List.append_assoc]
  · obtain ⟨dropped', rfl, rfl⟩ := shut dropped
    have none_left : last = [] := by
      simp only [emptied dropped, List.append_nil, List.nil_append, List.nil_eq,
        List.append_eq_nil_iff] at balance'
      exact balance'.1
    refine ⟨lost, ?_, .inr dropped'⟩
    rw [List.append_nil, balance, List.append_nil, emptied dropped, none_left]

theorem Flow.trans {arrived arrived' taken taken' : List Message} (first : Flow s t arrived taken)
    (emptied : t.holder = .nobody → t.queue = []) (second : Flow t u arrived' taken') :
    Flow s u (arrived ++ arrived') (taken ++ taken') := by
  constructor
  · exact balance_trans first.balance second.balance emptied second.shut
  · intro gone
    obtain ⟨gone', rfl, rfl⟩ := first.shut gone
    obtain ⟨gone'', rfl, rfl⟩ := second.shut gone'
    exact ⟨gone'', rfl, rfl⟩
  · intro still gone
    exact second.empty (first.empty still) gone

/-! ### Any course of a queue -/

/-- What can happen to a queue. To receive from it and to let it go is up to whoever holds it; where
nobody does, neither has any effect. -/
inductive QueueOp where
  | send (m : Message)
  | take
  | receive
  | drop
  | markOpen
  | markClosed
  deriving DecidableEq, Repr

inductive QueueEvent where
  | sent (m : Message) (result : Except Error Unit)
  | taken (got : Bool)
  | received (m? : Option Message)
  | dropped (held : Bool)
  | marked (first : Bool)

namespace QueueEvent

def accepted? : QueueEvent → Option Message
  | .sent m (.ok ()) => some m
  | _ => none

def received? : QueueEvent → Option Message
  | .received m? => m?
  | _ => none

def handsOver : QueueEvent → Bool
  | .taken got => got
  | _ => false

end QueueEvent

def operate (s : Session) : QueueOp → Session × QueueEvent
  | .send m => ((s.send m).1, .sent m (s.send m).2)
  | .take => (s.takeQueue.1, .taken s.takeQueue.2)
  | .receive =>
    if s.holder = .writer then (s.receive.1, .received s.receive.2) else (s, .received none)
  | .drop => if s.holder = .writer then (s.dropQueue, .dropped true) else (s, .dropped false)
  | .markOpen => (s.markOpen.1, .marked s.markOpen.2)
  | .markClosed => (s.markClosed.1, .marked s.markClosed.2)

def operateAll (s : Session) : List QueueOp → Session × List QueueEvent
  | [] => (s, [])
  | op :: rest =>
    let (s, event) := s.operate op
    let (s, events) := s.operateAll rest
    (s, event :: events)

/-- All that an operation does to a session, as far as its queue and its sends are concerned. -/
structure Operated (s : Session) (op : QueueOp) (event : QueueEvent) (t : Session) : Prop where
  config : t.config = s.config
  closed : t.phase = .closed ↔ s.phase = .closed ∨ op = .markClosed
  gone : t.holder = .nobody ↔ s.holder = .nobody ∨ event = .dropped true
  unclaimed : t.holder = .session ↔ s.holder = .session ∧ op ≠ .take
  handsOver : event.handsOver = true ↔ s.holder = .session ∧ op = .take
  flow : Flow s t event.accepted?.toList event.received?.toList

variable {op : QueueOp} {event : QueueEvent}

theorem Operated.of_same_holder (holder : t.holder = s.holder) (config : t.config = s.config)
    (phase : t.phase = .closed ↔ s.phase = .closed) (untaken : op ≠ .take)
    (unmarked : op ≠ .markClosed) (keeps : event.handsOver = false)
    (undropped : event ≠ .dropped true)
    (flow : Flow s t event.accepted?.toList event.received?.toList) : Operated s op event t where
  config := config
  closed := by simp only [phase, unmarked, or_false]
  gone := by simp only [holder, undropped, or_false]
  unclaimed := by simp only [holder, ne_eq, untaken, not_false_eq_true, and_true]
  handsOver := by simp only [keeps, untaken, and_false, Bool.false_eq_true]
  flow := flow

theorem operated_send (s : Session) (m : Message) :
    Operated s (.send m) (.sent m (s.send m).2) (s.send m).1 := by
  cases error : s.sendError? m with
  | some e =>
      rw [send_eq_of_error error]
      exact .of_same_holder rfl rfl .rfl nofun nofun rfl nofun (.of_same rfl rfl)
  | none =>
      have flow := Flow.send_ok (send_ok_iff.mpr ((sendError?_eq_none_iff s m).mp error))
      rw [send_eq_of_accepted error] at flow ⊢
      exact .of_same_holder rfl rfl .rfl nofun nofun rfl nofun flow

theorem operated_take (s : Session) :
    Operated s .take (.taken s.takeQueue.2) s.takeQueue.1 := by
  have flow := Flow.takeQueue s
  unfold takeQueue at flow ⊢
  cases holder : s.holder with
  | session =>
      simp only [holder] at flow ⊢
      exact ⟨rfl, by simp, by simp [holder], by simp, by simp [QueueEvent.handsOver, holder], flow⟩
  | writer | nobody =>
      simp only [holder] at flow ⊢
      exact ⟨rfl, by simp, by simp [holder], by simp [holder],
        by simp [QueueEvent.handsOver, holder], flow⟩

theorem operated_receive (emptied : s.holder = .nobody → s.queue = []) :
    Operated s .receive (.received s.receive.2) s.receive.1 := by
  have flow := Flow.receive s emptied
  unfold receive at flow ⊢
  cases waiting : s.queue with
  | nil | cons =>
      simp only [waiting] at flow ⊢
      exact .of_same_holder rfl rfl .rfl nofun nofun rfl nofun flow

theorem operated_drop (holder : s.holder = .writer) :
    Operated s .drop (.dropped true) s.dropQueue where
  config := rfl
  closed := by simp only [dropQueue, reduceCtorEq, or_false]
  gone := by simp only [dropQueue, or_true]
  unclaimed := by simp only [dropQueue, holder, reduceCtorEq, false_and]
  handsOver := by simp only [QueueEvent.handsOver, reduceCtorEq, Bool.false_eq_true, and_false]
  flow := .dropQueue s

theorem operated_mark (s : Session) (first : Bool) :
    Operated s .markClosed (.marked first) s.markClosed.1 where
  config := rfl
  closed := by simp only [markClosed, or_true]
  gone := by simp only [markClosed, reduceCtorEq, or_false]
  unclaimed := by simp only [markClosed, ne_eq, reduceCtorEq, not_false_eq_true, and_true]
  handsOver := by simp only [QueueEvent.handsOver, reduceCtorEq, Bool.false_eq_true, and_false]
  flow := .of_same rfl rfl

theorem operated (op : QueueOp) (emptied : s.holder = .nobody → s.queue = []) :
    Operated s op (s.operate op).2 (s.operate op).1 := by
  cases op with
  | send m => exact operated_send s m
  | take => exact operated_take s
  | markClosed => exact operated_mark s _
  | receive =>
      unfold operate
      by_cases holder : s.holder = .writer
      · simp only [if_pos holder]
        exact operated_receive emptied
      · simp only [if_neg holder]
        exact .of_same_holder rfl rfl .rfl nofun nofun rfl nofun (.of_same rfl rfl)
  | drop =>
      unfold operate
      by_cases holder : s.holder = .writer
      · simp only [if_pos holder]
        exact operated_drop holder
      · simp only [if_neg holder]
        exact .of_same_holder rfl rfl .rfl nofun nofun rfl nofun (.of_same rfl rfl)
  | markOpen =>
      unfold operate markOpen
      cases phase : s.phase with
      | created | opened | closed =>
          simp only
          exact .of_same_holder rfl rfl (by simp [phase]) nofun nofun rfl nofun (.of_same rfl rfl)

/-! ### What the history says of the queue -/

def accepted (history : List QueueEvent) : List Message := history.filterMap QueueEvent.accepted?

def received (history : List QueueEvent) : List Message := history.filterMap QueueEvent.received?

theorem accepted_append (history : List QueueEvent) (event : QueueEvent) :
    accepted (history ++ [event]) = accepted history ++ event.accepted?.toList := by
  unfold accepted
  rw [List.filterMap_append]
  cases answer : event.accepted? with
  | none | some => simp only [List.filterMap_cons, List.filterMap_nil, answer, Option.toList]

theorem received_append (history : List QueueEvent) (event : QueueEvent) :
    received (history ++ [event]) = received history ++ event.received?.toList := by
  unfold received
  rw [List.filterMap_append]
  cases answer : event.received? with
  | none | some => simp only [List.filterMap_cons, List.filterMap_nil, answer, Option.toList]

/-- The history of a queue accounts for what has become of a new session. -/
structure Accounted (new : Session) (ops : List QueueOp) (history : List QueueEvent)
    (s : Session) : Prop where
  config : s.config = new.config
  closed : s.phase = .closed ↔ .markClosed ∈ ops
  gone : s.holder = .nobody ↔ .dropped true ∈ history
  unclaimed : s.holder = .session ↔ .take ∉ ops
  handovers : history.countP QueueEvent.handsOver = if .take ∈ ops then 1 else 0
  emptied : s.holder = .nobody → s.queue = []
  flow : Flow new s (accepted history) (received history)

namespace Accounted
variable {new : Session} {ops : List QueueOp} {history : List QueueEvent}

theorem handovers_append (accounted : Accounted new ops history s)
    (operated : Operated s op event t) :
    (history ++ [event]).countP QueueEvent.handsOver = if .take ∈ ops ++ [op] then 1 else 0 := by
  have first : event.handsOver = true ↔ .take ∉ ops ∧ op = .take := by
    rw [operated.handsOver, accounted.unclaimed]
  rw [List.countP_append, List.countP_singleton, accounted.handovers]
  simp only [first, List.mem_append, List.mem_singleton, eq_comm (a := QueueOp.take)]
  by_cases before : QueueOp.take ∈ ops
  · simp only [before, if_true, not_true, false_and, if_false, true_or]
  · simp only [before, if_false, not_false_eq_true, true_and, false_or, Nat.zero_add]

theorem after (accounted : Accounted new ops history s) (operated : Operated s op event t) :
    Accounted new (ops ++ [op]) (history ++ [event]) t := by
  constructor
  · exact operated.config.trans accounted.config
  · rw [operated.closed, accounted.closed, List.mem_append, List.mem_singleton, eq_comm]
  · rw [operated.gone, accounted.gone, List.mem_append, List.mem_singleton, eq_comm]
  · rw [operated.unclaimed, accounted.unclaimed, List.mem_append, List.mem_singleton, not_or,
      ne_comm]
  · exact accounted.handovers_append operated
  · exact operated.flow.empty accounted.emptied
  · rw [accepted_append, received_append]
    exact accounted.flow.trans accounted.emptied operated.flow

theorem afterAll (accounted : Accounted new ops history s) (further : List QueueOp) :
    Accounted new (ops ++ further) (history ++ (s.operateAll further).2)
      (s.operateAll further).1 := by
  induction further generalizing ops history s with
  | nil =>
      simp only [operateAll, List.append_nil]
      exact accounted
  | cons op rest ih =>
      have later := ih (accounted.after (operated op accounted.emptied))
      rw [List.append_assoc, List.append_assoc] at later
      exact later

end Accounted

theorem accounted_new {id : Session.Id} {matched : Path.Match} {config : Config.SessionConfig}
    {subprotocol : Option String} {endpoint : Endpoint} :
    let new : Session := { id, matched, config, subprotocol, endpoint }
    Accounted new [] [] new := by
  intro new
  constructor
  · rfl
  · simp only [new, reduceCtorEq, List.not_mem_nil]
  · simp only [new, reduceCtorEq, List.not_mem_nil]
  · simp only [new, List.not_mem_nil, not_false_eq_true]
  · simp only [List.countP_nil, List.not_mem_nil, if_false]
  · exact fun _ => rfl
  · exact .of_same rfl rfl

/-- Whatever a session's policy and whatever has happened to its queue, the next send succeeds just
when the message is within its ceilings, the session has not been closed, its queue has not been let
go and has room. One that fails changes nothing, and tells of the first of these that fails it. Of
all who ask for the queue the first obtains it and nobody else does. What its holder has received is
a beginning of what was accepted, and as long as the queue is there the rest still waits in it and
comes out one by one. -/
theorem queue_settles_sends (id : Session.Id) (matched : Path.Match)
    (config : Config.SessionConfig) (subprotocol : Option String) (endpoint : Endpoint)
    (ops : List QueueOp) (m : Message) :
    let new : Session := { id, matched, config, subprotocol, endpoint }
    let s := (new.operateAll ops).1
    let history := (new.operateAll ops).2
    let fits := m.size ≤ messageCeiling config m
      ∧ (config.autoFragment = false → m.size ≤ config.maxFrameSize)
    let shut := .markClosed ∈ ops ∨ .dropped true ∈ history
    ((s.send m).2 = .ok () ↔ fits ∧ ¬shut ∧ s.queue.length < 1024)
      ∧ (¬fits → s.send m = (s, .error (.messageTooLarge (sendLimit config m))))
      ∧ (fits → shut → s.send m = (s, .error .closed))
      ∧ (fits → ¬shut → 1024 ≤ s.queue.length → s.send m = (s, .error (.queueFull 1024)))
      ∧ history.countP QueueEvent.handsOver = (if .take ∈ ops then 1 else 0)
      ∧ received history <+: accepted history
      ∧ (.dropped true ∉ history → accepted history = received history ++ s.queue)
      ∧ (.take ∈ ops → .dropped true ∉ history → ∀ next rest, s.queue = next :: rest →
        s.operate .receive = ({ s with queue := rest }, .received (some next))) := by
  intro new s history fits shut
  have accounted : Accounted new ops history s := accounted_new.afterAll ops
  have within : fits ↔ m.size ≤ sendLimit s.config m := by
    rw [accounted.config]
    exact (le_sendLimit_iff config m m.size).symm
  have unserved : shut ↔ s.phase = .closed ∨ s.holder = .nobody := by
    rw [accounted.closed, accounted.gone]
  obtain ⟨lost, balance, kept⟩ := accounted.flow.balance
  refine ⟨?_, ?_, ?_, ?_, accounted.handovers, ⟨_, balance.symm⟩, ?_, ?_⟩
  · rw [send_ok_iff, within, unserved, not_or, and_assoc]
    rfl
  · intro large
    rw [within, Nat.not_le] at large
    have refused := send_of_large large
    rw [accounted.config] at refused
    exact refused
  · intro small closed
    exact send_of_shut (within.mp small) (unserved.mp closed)
  · intro small served full
    exact send_of_full (within.mp small) (fun closed => served (unserved.mpr closed)) full
  · intro undropped
    have held : s.holder ≠ .nobody := fun gone => undropped (accounted.gone.mp gone)
    obtain rfl := kept.resolve_right held
    rw [List.append_nil] at balance
    exact balance
  · intro taken undropped next rest waiting
    have holder : s.holder = .writer := by
      have claimed := mt accounted.unclaimed.mp (not_not_intro taken)
      have held := mt accounted.gone.mp undropped
      cases at_last : s.holder with
      | writer => rfl
      | session => exact absurd at_last claimed
      | nobody => exact absurd at_last held
    simp only [operate, if_pos holder, receive, waiting]

end Gateway.Session
