import Gateway.Hub.Callback
import Gateway.Proofs.Hub.Audience
import Gateway.Proofs.Hub.Sessions

/-!
One text said in a chat room. It is queued once for each other member that can take it, whatever
becomes of it at the members before; nothing else about any session changes but that the speaker
has been heard.
-/
namespace Gateway

namespace Hub

/-- A text that one session says is queued for another: one that is live, shares the speaker's
path and path spec, is not closed, admits the text, has somebody to receive it, and has room. -/
def reaches (h : Hub) (speaker : SessionKey) (text : String) (member : SessionKey) : Bool :=
  match h.session? speaker, h.session? member with
  | some s, some t => member ≠ speaker ∧ member ∈ h.registry.live
    ∧ s.matched.path = t.matched.path ∧ s.matched.spec = t.matched.spec
    ∧ text.utf8ByteSize ≤ Session.sendLimit t.config (.text text) ∧ t.phase ≠ .closed
    ∧ t.holder ≠ .nobody ∧ t.queue.length < Session.queueCapacity
  | _, _ => false

variable {h : Hub} {speaker member : SessionKey} {text : String}

theorem sendEach_frame (h : Hub) (text : String) (keys : List SessionKey) :
    (h.sendEach text keys).1.registry = h.registry ∧ (h.sendEach text keys).1.cast = h.cast := by
  induction keys generalizing h with
  | nil => exact ⟨rfl, rfl⟩
  | cons key rest ih =>
      have registry := (sameStanding_send h key (.text text)).2
      have cast := cast_send h key (.text text)
      rw [sendEach]
      generalize h.send key (.text text) = result at registry cast ⊢
      obtain ⟨k, outcome⟩ := result
      cases outcome with
      | ok =>
          obtain ⟨registry', cast'⟩ := ih k
          exact ⟨registry'.trans registry, cast'.trans cast⟩
      | error e =>
          obtain ⟨registry', cast'⟩ := ih (k.log .debug "Chat delivery failed"
            [("error", .text e.message), ("session_id", .session key)])
          exact ⟨registry'.trans registry, cast'.trans cast⟩

/-- Sending to sessions in turn, none of them twice. A session that refuses keeps nothing from the
others. -/
theorem session?_sendEach (h : Hub) (text : String) {keys : List SessionKey}
    (distinct : keys.Nodup) (member : SessionKey) :
    (h.sendEach text keys).1.session? member
      = (h.session? member).map fun t => if member ∈ keys then (t.send (.text text)).1 else t := by
  induction keys generalizing h with
  | nil => simp [sendEach]
  | cons key rest ih =>
      obtain ⟨apart, distinct⟩ := List.nodup_cons.mp distinct
      have sent := session?_send h key member (.text text)
      have goes_on {k : Hub} (same : k.sessions = (h.send key (.text text)).1.sessions) :
          (k.sendEach text rest).1.session? member = (h.session? member).map fun t =>
            if member ∈ key :: rest then (t.send (.text text)).1 else t := by
        rw [ih k distinct, session?_of_sessions same, sent, Option.map_map]
        congr 1
        funext t
        by_cases own : key = member
        · subst own
          simp [apart]
        · simp [own, Ne.symm own]
      rw [sendEach]
      generalize h.send key (.text text) = result at goes_on ⊢
      obtain ⟨k, outcome⟩ := result
      cases outcome with
      | ok | error => exact goes_on rfl

theorem reaches_iff {s t : Session} (found : h.session? speaker = some s)
    (there : h.session? member = some t) : h.reaches speaker text member = true
      ↔ (member ≠ speaker ∧ member ∈ h.registry.live ∧ s.sharesRoom t = true)
        ∧ t.sendError? (.text text) = none := by
  rw [Session.sendError?_eq_none_iff, reaches, found, there, Session.sharesRoom]
  simp only [decide_eq_true_eq, and_assoc]
  rfl

theorem mem_audience {s t : Session} {f : Session → Session}
    (found : h.session? speaker = some s) (there : h.session? member = some t)
    (keeps : ∀ s, (f s).matched = s.matched) :
    member ∈ ((h.modify speaker f).roomMates h.registry.serial speaker).filter (· != speaker)
      ↔ member ≠ speaker ∧ member ∈ h.registry.live ∧ s.sharesRoom t = true := by
  have mates : (h.modify speaker f).roomMates h.registry.serial speaker
      = h.registry.live.filter fun k => ((h.modify speaker f).session? k).any (f s).sharesRoom := by
    have now : (h.modify speaker f).session? speaker = some (f s) := by
      rw [session?_modify, if_pos rfl, found]
      rfl
    have here : (h.modify speaker f).registry.serial = h.registry.serial := rfl
    rw [roomMates, if_pos here, now]
    rfl
  have room : (f s).sharesRoom (if speaker = member then f t else t) = s.sharesRoom t := by
    split
    · simp only [Session.sharesRoom, keeps]
    · simp only [Session.sharesRoom, keeps]
  rw [mates, List.mem_filter, List.mem_filter, session?_edit, there, Option.map_some,
    Option.any_some, room, bne_iff_ne]
  constructor
  · rintro ⟨⟨live, shares⟩, other⟩
    exact ⟨other, live, shares⟩
  · rintro ⟨other, live, shares⟩
    exact ⟨⟨live, shares⟩, other⟩

theorem roomMates_nodup (distinct : h.registry.live.Nodup) (registry : Nat) (key : SessionKey) :
    (h.roomMates registry key).Nodup := by
  rw [roomMates]
  split
  · split
    · exact .nil
    · exact distinct.filter _
  · exact .nil

def received (h : Hub) (speaker : SessionKey) (text : String) (member : SessionKey) :
    List Session.Message :=
  if h.reaches speaker text member then [.text text] else []

/-- What a text changes, session by session. -/
theorem session?_text (distinct : h.registry.live.Nodup)
    (chats : ∀ s, h.session? speaker = some s → s.endpoint = .chat h.registry.serial)
    (text : String) (member : SessionKey) :
    (h.callback speaker (.text text)).1.session? member
      = (h.session? member).map fun t => { t with
          queue := t.queue ++ h.received speaker text member
          heard := if member = speaker then t.heard ++ [.text text] else t.heard } := by
  cases found : h.session? speaker with
  | none =>
      rw [callback, found]
      refine session?_idle member rfl fun t there => ?_
      have other : member ≠ speaker := by
        rintro rfl
        exact absurd (there.symm.trans found) (by simp)
      simp [received, reaches, found, other]
  | some s =>
      let f (s : Session) : Session := { s with heard := s.heard ++ [.text text] }
      let keys := ((h.modify speaker f).roomMates h.registry.serial speaker).filter (· != speaker)
      have once : keys.Nodup := (roomMates_nodup (h := h.modify speaker f) distinct _ _).filter _
      have sends : (h.callback speaker (.text text)).1.session? member
          = ((h.modify speaker f).sendEach text keys).1.session? member := by
        rw [callback, found]
        dsimp only
        rw [chats s found]
        rfl
      rw [sends, session?_sendEach _ _ once, session?_edit, Option.map_map]
      cases there : h.session? member with
      | none => rfl
      | some t =>
          have sent_to : member ∈ keys ↔ _ := mem_audience found there fun s => rfl
          have reached : h.reaches speaker text member = true ↔ _ := reaches_iff found there
          rw [← sent_to] at reached
          rw [Option.map_some, Option.map_some, Function.comp_apply, received]
          by_cases own : member = speaker
          · subst own
            have apart : member ∉ keys := fun among => (sent_to.mp among).1 rfl
            simp [apart, f, reached]
          · rw [if_neg (Ne.symm own), if_neg own]
            by_cases among : member ∈ keys
            · rw [if_pos among]
              cases refused : t.sendError? (.text text) with
              | none =>
                  rw [Session.send_of_accepted refused, if_pos (reached.mpr ⟨among, refused⟩)]
              | some e =>
                  have lost : ¬ h.reaches speaker text member = true := by simp [reached, refused]
                  rw [Session.send_of_error refused, if_neg lost, List.append_nil]
            · rw [if_neg among, if_neg fun reaches => among (reached.mp reaches).1,
                List.append_nil]

theorem callback_text_frame
    (chats : ∀ s, h.session? speaker = some s → s.endpoint = .chat h.registry.serial)
    (text : String) : (h.callback speaker (.text text)).2 = none
      ∧ (h.callback speaker (.text text)).1.registry = h.registry
      ∧ (h.callback speaker (.text text)).1.cast = h.cast := by
  rw [callback]
  cases found : h.session? speaker with
  | none => exact ⟨rfl, rfl, rfl⟩
  | some s =>
      dsimp only
      rw [chats s found]
      exact ⟨rfl, sendEach_frame _ text _⟩

end Hub
end Gateway
