import Gateway.Hub.Call

/-!
What an operation on the hub leaves alone. Telling a listener changes no phase, no live set, and,
unless the listener registers somebody or takes somebody out, no list of listeners.
-/
namespace Gateway

/-- A reaction that leaves the list of listeners alone. -/
def Session.Reaction.steady : Session.Reaction → Bool
  | .enlist _ | .dismiss _ => false
  | _ => true

/-- A reaction calls for closings and openings, of any session, and nothing else. -/
theorem Session.Reaction.mem_calls {key : SessionKey} {r : Session.Reaction} {c : Call}
    (called : c ∈ r.calls key) : (∃ k, c = .closeSession k) ∨ (∃ k, c = .openSession k)
      ∨ ∃ first, c = .closeAll first := by
  cases r with
  | closeSession other => exact .inl ⟨_, List.mem_singleton.mp called⟩
  | openSession other => exact .inr (.inl ⟨_, List.mem_singleton.mp called⟩)
  | closeAll first => exact .inr (.inr ⟨first, List.mem_singleton.mp called⟩)
  | _ => exact absurd called List.not_mem_nil

theorem visit_perm (first live : List SessionKey) : (visit first live).Perm live := by
  induction first generalizing live with
  | nil => exact .refl live
  | cons key first ih =>
      rw [visit]
      by_cases among : live.contains key = true
      · rw [if_pos among]
        have there : key ∈ live := List.contains_iff_mem.mp among
        exact ((ih (live.erase key)).cons key).trans (List.perm_cons_erase there).symm
      · rw [if_neg among]
        exact ih live

/-- It can be any order. -/
theorem visit_of_perm {order live : List SessionKey} (perm : order.Perm live) :
    visit order live = order := by
  induction order generalizing live with
  | nil => exact perm.nil_eq.symm
  | cons key order ih =>
      have there : key ∈ live := perm.subset List.mem_cons_self
      have rest : order.Perm (live.erase key) :=
        ((List.perm_cons key).mp (perm.trans (List.perm_cons_erase there)))
      rw [visit, if_pos (List.contains_iff_mem.mpr there), ih rest]

namespace Hub

theorem phase_of_sessions {h k : Hub} (same : k.sessions = h.sessions) (key : SessionKey) :
    k.phase key = h.phase key := by
  rw [phase, phase, session?, session?, same]

theorem session?_modify (h : Hub) (key other : SessionKey) (f : Session → Session) :
    (h.modify key f).session? other = if key = other then (h.session? other).map f
      else h.session? other := by
  rw [session?, session?, modify, List.getElem?_modify]
  by_cases same : key = other
  · simp [same]
  · simp [same]

theorem phase_modify (h : Hub) (key : SessionKey) {f : Session → Session}
    (keeps : ∀ s, (f s).phase = s.phase) (other : SessionKey) :
    (h.modify key f).phase other = h.phase other := by
  rw [phase, phase, session?_modify]
  by_cases same : key = other
  · rw [if_pos same]
    cases h.session? other with
    | none => rfl
    | some s => exact keeps s
  · rw [if_neg same]

theorem phase_modify_ne (h : Hub) {key other : SessionKey} (f : Session → Session)
    (ne : key ≠ other) : (h.modify key f).phase other = h.phase other := by
  rw [phase, phase, session?_modify, if_neg ne]

theorem phase_markClosed (h : Hub) (key : SessionKey) :
    (h.modify key fun s => s.markClosed.1).phase key = .closed := by
  rw [phase, session?_modify, if_pos rfl]
  cases h.session? key with
  | none => rfl
  | some s => rfl

theorem phase_markOpen (h : Hub) {key : SessionKey} (created : h.phase key = .created)
    (other : SessionKey) : (h.modify key fun s => s.markOpen.1).phase other
      = if other = key then .opened else h.phase other := by
  by_cases same : other = key
  · subst same
    rw [if_pos rfl]
    rw [phase] at created ⊢
    rw [session?_modify, if_pos rfl]
    cases found : h.session? other with
    | none =>
        rw [found] at created
        exact absurd created (by simp)
    | some s =>
        rw [found] at created
        have new : s.phase = .created := created
        simp [Session.markOpen, new]
  · rw [if_neg same, phase_modify_ne h _ (Ne.symm same)]

/-- Everything but what the telling of a listener can change. -/
structure SameStanding (h k : Hub) : Prop where
  phase : ∀ key, k.phase key = h.phase key
  live : k.registry.live = h.registry.live

theorem SameStanding.trans {h k l : Hub} (first : SameStanding h k) (second : SameStanding k l) :
    SameStanding h l where
  phase key := (second.phase key).trans (first.phase key)
  live := second.live.trans first.live

theorem SameStanding.gone {h k : Hub} {key : SessionKey} (same : SameStanding h k)
    (gone : key ∉ h.registry.live) :
    key ∉ k.registry.live := by rwa [same.live]

theorem sameStanding_of_eq {h k : Hub} (sessions : k.sessions = h.sessions)
    (live : k.registry.live = h.registry.live) : SameStanding h k :=
  ⟨phase_of_sessions sessions, live⟩

theorem sameStanding_modify (h : Hub) (key : SessionKey) {f : Session → Session}
    (keeps : ∀ s, (f s).phase = s.phase) : SameStanding h (h.modify key f) :=
  ⟨phase_modify h key keeps, rfl⟩

theorem logEvent_frame (h : Hub) (key : SessionKey) (event : Session.Event) :
    (h.logEvent key event).sessions = h.sessions
      ∧ (h.logEvent key event).registry = h.registry := by
  rw [logEvent]
  cases h.session? key with
  | none => exact ⟨rfl, rfl⟩
  | some s =>
      cases event with
      | opened | closed | failed => exact ⟨rfl, rfl⟩

theorem hear_frame (h : Hub) (l : Session.Listener) (key : SessionKey) (event : Session.Event) :
    (h.hear l key event).sessions = h.sessions ∧ (h.hear l key event).registry = h.registry := by
  rw [hear]
  by_cases logs : l.logs = true
  · rw [if_pos logs]
    exact logEvent_frame (h.note (.heard ⟨l, event, key, h.phase key⟩)) key event
  · rw [if_neg logs]
    exact ⟨rfl, rfl⟩

theorem sameStanding_send (h : Hub) (key : SessionKey) (m : Session.Message) :
    SameStanding h (h.send key m).1 ∧ (h.send key m).1.registry = h.registry := by
  have keeps (s : Session) : (s.send m).1.phase = s.phase := by
    rw [Session.send]
    cases s.sendError? m with
    | none => rfl
    | some e => rfl
  rw [send]
  cases h.session? key with
  | none => exact ⟨sameStanding_of_eq rfl rfl, rfl⟩
  | some s =>
      simp only
      split
      · exact ⟨sameStanding_of_eq rfl rfl, rfl⟩
      · exact ⟨sameStanding_of_eq rfl rfl, rfl⟩
      · exact ⟨sameStanding_modify h key keeps, rfl⟩

theorem react_frame (h : Hub) (key : SessionKey) (r : Session.Reaction) :
    SameStanding h (h.react key r).1
      ∧ (r.steady = true → (h.react key r).1.registry.listeners = h.registry.listeners) := by
  have same := sameStanding_of_eq (h := h) (k := h) rfl rfl
  cases r with
  | succeed | fail | panic | closeSession | openSession | closeAll => exact ⟨same, fun _ => rfl⟩
  | waver outcomes => exact ⟨sameStanding_of_eq rfl rfl, fun _ => rfl⟩
  | takeQueue other =>
      refine ⟨sameStanding_modify h (other.getD key) ?_, fun _ => rfl⟩
      intro s
      rw [Session.takeQueue]
      cases s.holder with
      | session | writer | nobody => rfl
  | requestClose other =>
      exact ⟨sameStanding_modify h (other.getD key) fun s => rfl, fun _ => rfl⟩
  | send other s =>
      obtain ⟨standing, registry⟩ := sameStanding_send h (other.getD key) (.text s)
      rw [react]
      generalize h.send (other.getD key) (.text s) = sent at standing registry ⊢
      obtain ⟨k, outcome⟩ := sent
      have listeners : k.registry.listeners = h.registry.listeners :=
        congrArg Registry.listeners registry
      cases outcome with
      | ok | error => exact ⟨standing, fun _ => listeners⟩
  | enlist name =>
      rw [react]
      cases h.listener? name with
      | none => exact ⟨same, fun _ => rfl⟩
      | some l => exact ⟨sameStanding_of_eq rfl rfl, fun steady => absurd steady Bool.false_ne_true⟩
  | dismiss name =>
      exact ⟨sameStanding_of_eq rfl rfl, fun steady => absurd steady Bool.false_ne_true⟩

theorem tell_frame (h : Hub) (l : Session.Listener) (key : SessionKey) (event : Session.Event)
    (index : Nat) : SameStanding h (h.tell l key event index).1
      ∧ ((l.reaction event.kind).steady = true →
        (h.tell l key event index).1.registry.listeners = h.registry.listeners) := by
  obtain ⟨sessions, registry⟩ := hear_frame h l key event
  have heard := sameStanding_of_eq sessions (congrArg Registry.live registry)
  obtain ⟨reacted, listeners⟩ := react_frame (h.hear l key event) key (l.reaction event.kind)
  rw [registry] at listeners
  rw [tell]
  generalize (h.hear l key event).react key (l.reaction event.kind) = reaction
    at reacted listeners ⊢
  obtain ⟨k, cause⟩ := reaction
  have told := heard.trans reacted
  cases cause with
  | none => exact ⟨told, listeners⟩
  | some cause => exact ⟨told.trans (sameStanding_of_eq rfl rfl), listeners⟩

def waiting : Call → List Session.Listener
  | .deliver _ _ _ rest _ => rest
  | _ => []

/-- Listeners that leave the list of listeners alone leave it as it is, step by step. -/
theorem listeners_step {h : Hub} {listeners : List Session.Listener} (c : Call)
    (steady : ∀ l ∈ listeners, ∀ kind, (l.reaction kind).steady = true)
    (registry : h.registry.listeners = listeners) (among : ∀ l ∈ waiting c, l ∈ listeners) :
    (c.step h).1.registry.listeners = listeners
      ∧ ∀ m ∈ (c.step h).2, ∀ l ∈ waiting m, l ∈ listeners := by
  have nobody (m : Call) (none_waits : waiting m = []) : ∀ l ∈ waiting m, l ∈ listeners := by
    rw [none_waits]
    exact fun l hl => absurd hl List.not_mem_nil
  cases c with
  | openSession k =>
      rw [Call.step]
      cases h.phase k with
      | created => exact ⟨registry, by simpa using nobody _ rfl⟩
      | opened | closed => exact ⟨registry, by simp⟩
  | goLive k | closeSession k | announce k event | report k e | closeAll first =>
      exact ⟨registry, fun m hm => by rw [List.mem_singleton.mp hm]; exact nobody _ rfl⟩
  | finishClose k removed =>
      refine ⟨registry, ?_⟩
      intro m hm
      rw [Call.step] at hm
      split at hm
      · rw [List.mem_singleton.mp hm]
        exact nobody _ rfl
      · exact absurd hm List.not_mem_nil
  | notify k event =>
      refine ⟨registry, ?_⟩
      intro m hm
      rw [List.mem_singleton.mp hm, ← registry]
      exact fun l hl => hl
  | deliver k event index rest faults =>
      cases rest with
      | nil => exact ⟨registry, by simp [Call.step]⟩
      | cons l rest =>
          obtain ⟨-, same⟩ := tell_frame h l k event index
          have told := same (steady l (among l List.mem_cons_self) event.kind)
          refine ⟨told.trans registry, ?_⟩
          intro m hm
          rcases List.mem_append.mp hm with called | goes_on
          · rcases Session.Reaction.mem_calls called with ⟨k, rfl⟩ | ⟨k, rfl⟩ | ⟨first, rfl⟩
            · exact nobody _ rfl
            · exact nobody _ rfl
            · exact nobody _ rfl
          · rw [List.mem_singleton.mp goes_on]
            exact fun l' hl' => among l' (List.mem_cons_of_mem l hl')
  | closeEach count keys =>
      cases keys with
      | nil =>
          rw [Call.step]
          split
          · exact ⟨registry, by simp⟩
          · exact ⟨registry, by simp⟩
      | cons k keys =>
          refine ⟨registry, ?_⟩
          intro m hm
          rcases List.mem_cons.mp hm with rfl | other
          · exact nobody _ rfl
          · rw [List.mem_singleton.mp other]
            exact nobody _ rfl

end Hub
end Gateway
