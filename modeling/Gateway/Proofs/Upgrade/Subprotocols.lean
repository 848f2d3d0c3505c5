import Gateway.Proofs.Upgrade.Layering
import Gateway.Proofs.Upgrade.Offers

/-!
What becomes of the subprotocols on offer. The creator of a mapping accepts what it likes, and a
session records what its creator accepted last. The echo and the chat creator accept nothing that is
not on offer. Main statement: `offers_settle_subprotocols`.
-/
namespace Gateway.Upgrade

/-! ### Creators -/

namespace Creator

variable {creator : Creator} {request : Request}

/-- The subprotocol that a creator accepts: the one it names last, if it names any. -/
def accepted? (creator : Creator) (request : Request) : Option String :=
  ((creator request).acts.filterMap CreatorAct.protocol?).getLast?

def rejects? (creator : Creator) (request : Request) : Option Rejection :=
  ((creator request).acts.filterMap CreatorAct.rejection?).getLast?

/-- A creator that accepts nothing but what is on offer. -/
def AcceptsOffered (creator : Creator) : Prop :=
  ∀ request p, accepted? creator request = some p → p ∈ request.subprotocols

/-- A creator that does all that it plans, and reports nothing itself. -/
def Straight (creator : Creator) : Prop :=
  ∀ request, (creator request).course = some ((creator request).acts, (creator request).finish)
    ∧ reportsOf (creator request).acts = []

def LacksChat (request : Request) : Prop :=
  request.subprotocols ≠ [] ∧ chatProtocol ∉ request.subprotocols

theorem accepted?_echo (request : Request) :
    accepted? echo request = request.subprotocols.head? := by
  rw [accepted?, echo]
  cases request.subprotocols with
  | nil | cons => rfl

theorem straight_echo : Straight echo := by
  intro request
  rw [echo]
  cases request.subprotocols with
  | nil | cons => exact ⟨rfl, rfl⟩

theorem acceptsOffered_echo : AcceptsOffered echo := by
  intro request p accepted
  rw [accepted?_echo] at accepted
  exact List.mem_of_mem_head? accepted

theorem chat_cases (registry : Nat) (request : Request) :
    request.subprotocols = [] ∧ chat registry request = { finish := .accept (.chat registry) }
      ∨ chatProtocol ∈ request.subprotocols ∧ chat registry request
        = { acts := [.acceptSubprotocol chatProtocol], finish := .accept (.chat registry) }
      ∨ LacksChat request ∧ chat registry request
        = { acts := [.sendError 400 "chat subprotocol required"], finish := .decline } := by
  rw [chat, Request.offers]
  by_cases empty : request.subprotocols = []
  · left
    exact ⟨empty, if_pos (by rw [empty]; rfl)⟩
  · rw [if_neg (by simpa using empty)]
    right
    by_cases offered : chatProtocol ∈ request.subprotocols
    · left
      exact ⟨offered, if_pos (by simpa using offered)⟩
    · right
      exact ⟨⟨empty, offered⟩, if_neg (by simpa using offered)⟩

theorem straight_chat (registry : Nat) : Straight (chat registry) := by
  intro request
  rcases chat_cases registry request with ⟨-, plan⟩ | ⟨-, plan⟩ | ⟨-, plan⟩
  all_goals
    rw [plan]
    exact ⟨rfl, rfl⟩

theorem chat_decides (registry : Nat) (request : Request) :
    (∀ p, accepted? (chat registry) request = some p
        ↔ p = chatProtocol ∧ chatProtocol ∈ request.subprotocols)
      ∧ (∀ r, rejects? (chat registry) request = some r
        ↔ r = ⟨400, "chat subprotocol required"⟩ ∧ LacksChat request)
      ∧ ((∃ endpoint, (chat registry request).finish = .accept endpoint)
        ↔ ¬ LacksChat request) := by
  rw [accepted?, rejects?]
  rcases chat_cases registry request with ⟨empty, plan⟩ | ⟨offered, plan⟩ | ⟨lacks, plan⟩
  · rw [plan]
    simp [LacksChat, empty]
  · rw [plan]
    simp [LacksChat, offered, CreatorAct.protocol?, CreatorAct.rejection?, eq_comm]
  · rw [plan]
    simp [lacks, lacks.2, CreatorAct.protocol?, CreatorAct.rejection?, eq_comm]

theorem acceptsOffered_chat (registry : Nat) : AcceptsOffered (chat registry) := by
  intro request p accepted
  obtain ⟨rfl, offered⟩ := ((chat_decides registry request).1 p).mp accepted
  exact offered

end Creator

/-! ### Exchanges -/

open Creator (accepted? rejects? AcceptsOffered Straight LacksChat)

theorem Exchange.run_straight {c : Container} {n : Negotiator} {matched : Path.Match}
    (straight : Straight n.creator) (request : Request)
    (taken : c.resolve request.path = some (n, matched)) (h : Hub) :
    let carried := { request with matched := some matched }
    let left := (Exchange.run c h { request }).2.response
    left.subprotocol = accepted? n.creator carried ∧ left.rejection = rejects? n.creator carried
      ∧ (left.session ≠ none ↔ ∃ endpoint, (n.creator carried).finish = .accept endpoint) := by
  intro carried left
  obtain ⟨course, unreported⟩ := straight carried
  obtain ⟨x, begins, working⟩ := run_mapped request taken h
  have begun : h.Leads (callsOf []) [] [] h := .start
  have ran := working.run c begun
  rw [← begins, ← Plan.course, course] at ran
  obtain ⟨k, y, past, ran, -, ended⟩ := ran
  generalize (n.creator carried).finish = last at ended
  -- Nothing has been reported by the end, so an endpoint always gets its session.
  by_cases accepting : ∃ endpoint, last = .accept endpoint
  · obtain ⟨endpoint, rfl⟩ := accepting
    obtain ⟨-, -, -, -, response, -⟩ := ended.run_accept unreported c k
    have leaves : left = { Response.after n.config (n.creator carried).acts with
      session := some k.nextKey } := by rw [← response, ← ran]
    rw [leaves]
    exact ⟨rfl, rfl, iff_of_true (by simp) ⟨endpoint, rfl⟩⟩
  · have no_session : ∀ endpoint, last = .accept endpoint →
        reportsOf (n.creator carried).acts ≠ [] :=
      fun endpoint accepts => absurd ⟨endpoint, accepts⟩ accepting
    obtain ⟨-, -, response, -⟩ := ended.run_quiet no_session c k
    have leaves : left = Response.after n.config (n.creator carried).acts := by
      rw [← response, ← ran]
    rw [leaves]
    exact ⟨rfl, rfl, iff_of_false (fun some_session => some_session rfl) accepting⟩

theorem Exchange.run_echo {c : Container} {n : Negotiator} {matched : Path.Match}
    (echoes : n.creator = Creator.echo) (request : Request)
    (taken : c.resolve request.path = some (n, matched)) (h : Hub) :
    let left := (Exchange.run c h { request }).2.response
    left.subprotocol = request.subprotocols.head? ∧ left.session ≠ none := by
  intro left
  have straight : Straight n.creator := by
    rw [echoes]
    exact Creator.straight_echo
  obtain ⟨accepts, -, session⟩ := run_straight straight request taken h
  rw [echoes, Creator.accepted?_echo] at accepts
  rw [echoes] at session
  exact ⟨accepts, session.mpr ⟨.echo, rfl⟩⟩

theorem Exchange.run_chat {c : Container} {n : Negotiator} {matched : Path.Match} {registry : Nat}
    (chats : n.creator = Creator.chat registry) (request : Request)
    (taken : c.resolve request.path = some (n, matched)) (h : Hub) :
    let left := (Exchange.run c h { request }).2.response
    (∀ p, left.subprotocol = some p
        ↔ p = Creator.chatProtocol ∧ Creator.chatProtocol ∈ request.subprotocols)
      ∧ (∀ r, left.rejection = some r
        ↔ r = ⟨400, "chat subprotocol required"⟩ ∧ LacksChat request)
      ∧ (left.session = none ↔ LacksChat request) := by
  intro left
  have straight : Straight n.creator := by
    rw [chats]
    exact Creator.straight_chat registry
  obtain ⟨accepts, rejects, session⟩ := run_straight straight request taken h
  obtain ⟨accepted, rejected, finishes⟩ :=
    Creator.chat_decides registry { request with matched := some matched }
  rw [chats] at accepts rejects session
  refine ⟨?_, ?_, ?_⟩
  · intro p
    rw [accepts]
    exact accepted p
  · intro r
    rw [rejects]
    exact rejected r
  · exact not_iff_not.mp (session.trans finishes)

/-! ### Sessions -/

/-- A session records what the creator accepted in the exchange that established it, whatever else
has happened on the hub. -/
theorem Service.records (c : Container) (h : Hub) (events : List Service.Event) :
    let s := (Service.mk c h []).run events
    ∀ x ∈ s.exchanges, ∀ key, x.Establishes key → ∃ n t, c.TakesRequest x.request n
      ∧ s.hub.session? key = some t ∧ t.subprotocol = accepted? n.creator x.request := by
  intro s x among key established
  have sound : s.Sound := by
    have none_yet : (Service.mk c h []).Sound := fun x among => absurd among List.not_mem_nil
    exact none_yet.run events
  obtain ⟨n, t, left, taken, rfl, found, -, records⟩ := (sound x among).shapes established
  have unchanged : s.container = c := Service.container_run _ events
  rw [unchanged] at taken
  exact ⟨n, t, taken, found, records⟩

/-- Offers, and what comes of them. What is on offer are the tokens that the lines of the header
spell, however they are spelled. The echo creator accepts the first of them; the chat creator
accepts its own protocol where it is on offer, and turns away with 400 those who offer others only.
A session records what its creator accepted in the exchange, whatever else happens on the hub; so if
that creator accepts only what is on offer, as these two do, then what the session records was on
offer. -/
theorem offers_settle_subprotocols {headers : Http.Headers} {lines : List String}
    (brings : Offer.Brings headers lines) (uri : Http.Uri) :
    let request := Request.ofParts uri headers
    let tokens := request.subprotocols
    (∀ offers, tokens = offers ↔ Offer.SpellAll lines offers)
      ∧ (∀ other lines', other.valuesOf Request.offerHeader = lines'.map Text.bytes →
        lines' = [", ".intercalate lines] ∨ Relation.ReflTransGen Offer.Respelled lines lines' →
        (Request.ofParts uri other).subprotocols = tokens)
      ∧ (∀ c h n matched, c.resolve request.path = some (n, matched) →
        let left := (Exchange.run c h { request }).2.response
        (n.creator = Creator.echo → left.subprotocol = tokens.head? ∧ left.session ≠ none)
          ∧ ∀ registry, n.creator = Creator.chat registry →
            (∀ p, left.subprotocol = some p ↔ p = "chat" ∧ "chat" ∈ tokens)
            ∧ (∀ r, left.rejection = some r
              ↔ r = ⟨400, "chat subprotocol required"⟩ ∧ tokens ≠ [] ∧ "chat" ∉ tokens)
            ∧ (left.session = none ↔ tokens ≠ [] ∧ "chat" ∉ tokens))
      ∧ AcceptsOffered Creator.echo ∧ (∀ registry, AcceptsOffered (Creator.chat registry))
      ∧ ∀ c h events, let s := (Service.mk c h []).run events
        ∀ x ∈ s.exchanges, x.request = { request with matched := x.request.matched } →
        ∀ key, x.Establishes key → ∃ n t, c.TakesRequest x.request n
          ∧ s.hub.session? key = some t ∧ t.subprotocol = accepted? n.creator x.request
          ∧ (AcceptsOffered n.creator → ∀ p, t.subprotocol = some p → p ∈ tokens) := by
  intro request tokens
  refine ⟨fun offers => brings.offered_eq_iff, ?_, ?_, Creator.acceptsOffered_echo,
    Creator.acceptsOffered_chat, ?_⟩
  · intro other lines' values anew
    apply brings.respelled _ values
    rcases anew with rfl | respelled
    · exact Offer.respelled_joined lines
    · exact respelled
  · intro c h n matched taken left
    constructor
    · intro echoes
      exact Exchange.run_echo echoes request taken h
    · intro registry chats
      exact Exchange.run_chat chats request taken h
  · intro c h events s x among carries key established
    obtain ⟨n, t, taken, found, records⟩ := Service.records c h events x among key established
    refine ⟨n, t, taken, found, records, ?_⟩
    intro offered p recorded
    have among_tokens := offered x.request p (records.symm.trans recorded)
    rw [carries] at among_tokens
    exact among_tokens

def spreadLines : List String := ["v2 ,chat", "\t,, b"]

def spreadHeaders : Http.Headers :=
  ⟨spreadLines.map fun line => ⟨Request.offerHeader, Text.bytes line⟩⟩

def spreadRequest : Request := .ofParts { path := ['/'] } spreadHeaders

open Exchange (withOneMapping)

theorem offers_settle_spread_subprotocols :
    let joined : Http.Headers := ⟨[⟨Request.offerHeader, Text.bytes "v2 ,chat, \t,, b"⟩]⟩
    let echoed := (Exchange.run (withOneMapping Creator.echo) {} { request := spreadRequest }).2
    let chatting :=
      (Exchange.run (withOneMapping (Creator.chat 0)) {} { request := spreadRequest }).2
    let s := (Service.mk (withOneMapping Creator.echo) {} []).run
      [.arrive spreadRequest {}, .step 0, .step 0, .step 0, .elsewhere (.wait 1), .step 0]
    Offer.Brings spreadHeaders spreadLines
      ∧ spreadRequest.subprotocols = ["v2", "chat", "b"]
      ∧ (Request.ofParts { path := ['/'] } joined).subprotocols = spreadRequest.subprotocols
      ∧ echoed.response.subprotocol = some "v2"
      ∧ chatting.response.subprotocol = some "chat" ∧ chatting.response.session ≠ none
      ∧ ∃ t, s.hub.session? 0 = some t ∧ t.subprotocol = some "v2" := by
  intro joined echoed chatting s
  have brings : Offer.Brings spreadHeaders spreadLines := {
    values := by decide +kernel
    readable := by simp [spreadLines, Http.IsReadable] }
  obtain ⟨spelled, same, settled, -, -, recorded⟩ :=
    offers_settle_subprotocols brings { path := ['/'] }
  have tokens : spreadRequest.subprotocols = ["v2", "chat", "b"] := by
    obtain ⟨first, second⟩ : Offer.tokensIn "v2 ,chat".toList = ["v2", "chat"]
        ∧ Offer.tokensIn "\t,, b".toList = ["b"] := by decide +kernel
    refine (spelled _).mpr (.cons ((Offer.spells_iff ?_).mpr first)
      (.cons ((Offer.spells_iff ?_).mpr second) .nil))
    · simp [Http.IsReadable]
    · simp [Http.IsReadable]
  refine ⟨brings, tokens, ?_, ?_, ?_, ?_, ?_⟩
  · exact same joined _ (by decide +kernel) (.inl rfl)
  · obtain ⟨accepts, -⟩ := (settled (withOneMapping Creator.echo) {} _ _ rfl).1 rfl
    rw [← spreadRequest, tokens] at accepts
    exact accepts
  · obtain ⟨accepts, -⟩ := (settled (withOneMapping (Creator.chat 0)) {} _ _ rfl).2 0 rfl
    rw [← spreadRequest, tokens] at accepts
    exact (accepts "chat").mpr (by decide)
  · obtain ⟨-, -, session⟩ := (settled (withOneMapping (Creator.chat 0)) {} _ _ rfl).2 0 rfl
    rw [← spreadRequest, tokens] at session
    intro none_made
    exact (session.mp none_made).2 (by decide)
  · obtain ⟨x, there, opening, carries⟩ : ∃ x, s.exchanges[0]? = some x
        ∧ (∃ calls, x.stage = .opening 0 calls)
        ∧ x.request = { spreadRequest with matched := x.request.matched } := by
      have known : spreadRequest = { path := "/", headers := spreadHeaders,
                                     subprotocols := ["v2", "chat", "b"] } := by
        rw [← tokens]
        rfl
      simp only [s, known]
      exact ⟨_, rfl, ⟨_, rfl⟩, rfl⟩
    obtain ⟨n, t, ⟨matched, resolved, -⟩, found, records, -⟩ := recorded
      (withOneMapping Creator.echo) {} _ x (List.mem_of_getElem? there) carries 0 (.inr opening)
    obtain ⟨rfl, -⟩ := Prod.mk.inj (Option.some.inj resolved)
    refine ⟨t, found, records.trans ?_⟩
    rw [Creator.accepted?_echo, carries]
    exact congrArg List.head? tokens

def insisting : Creator := fun _ =>
  { acts := [.acceptSubprotocol "v9"], finish := .accept .echo }

/-- A creator is free to accept what nobody offers, and the session records it: here one that was
established for a request that offers `v1` alone. -/
theorem unoffered_subprotocol_recorded :
    let request :=
      Request.ofParts { path := ['/', 's'] } ⟨[⟨Request.offerHeader, Text.bytes "v1"⟩]⟩
    let (h, x) := Exchange.play (withOneMapping insisting) {} { request } (List.replicate 10 .step)
    x.request.subprotocols = ["v1"] ∧ x.hasEnded = true ∧ x.response.session = some 0
      ∧ (h.session? 0).bind Session.subprotocol = some "v9"
      ∧ "v9" ∉ x.request.subprotocols := by
  decide +kernel

end Gateway.Upgrade
