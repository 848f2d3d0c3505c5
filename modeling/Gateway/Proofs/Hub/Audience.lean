import Gateway.Proofs.Hub.Sessions

/-!
Who listens to a registry. Whatever is known of all the listeners, and of those that can be named,
holds of whoever listens later, and of whoever is told.
-/
namespace Gateway.Hub

/-- Everybody who listens to a registry, or can be named to listen, is as stated. -/
structure Audience (P : Session.Listener → Prop) (serial : Nat) (h : Hub) : Prop where
  serial : h.registry.serial = serial
  listeners : ∀ l ∈ h.registry.listeners, P l
  cast : ∀ l ∈ h.cast, P l

variable {P : Session.Listener → Prop} {serial : Nat} {h k : Hub}

theorem Audience.of_eq (audience : Audience P serial h)
    (same : k.registry.serial = h.registry.serial)
    (listeners : k.registry.listeners = h.registry.listeners) (cast : k.cast = h.cast) :
    Audience P serial k where
  serial := same.trans audience.serial
  listeners := by rw [listeners]; exact audience.listeners
  cast := by rw [cast]; exact audience.cast

theorem cast_hear (h : Hub) (l : Session.Listener) (key : SessionKey) (event : Session.Event) :
    (h.hear l key event).cast = h.cast := by
  have logged (k : Hub) : (k.logEvent key event).cast = k.cast := by
    rw [logEvent]
    cases k.session? key with
    | none => rfl
    | some s => cases event <;> rfl
  rw [hear]
  cases l.logs <;> simp [logged] <;> rfl

theorem cast_send (h : Hub) (key : SessionKey) (m : Session.Message) :
    (h.send key m).1.cast = h.cast := by
  rw [send]
  cases h.session? key with
  | none => rfl
  | some s =>
      dsimp only
      split <;> rfl

theorem Audience.react (audience : Audience P serial h) (key : SessionKey) (r : Session.Reaction) :
    Audience P serial (h.react key r).1 := by
  cases r with
  | succeed | fail | panic | waver | closeSession | openSession | closeAll | takeQueue
  | requestClose =>
      exact audience.of_eq rfl rfl rfl
  | send other text =>
      have registry := (sameStanding_send h (other.getD key) (.text text)).2
      have cast := cast_send h (other.getD key) (.text text)
      rw [Hub.react]
      generalize h.send (other.getD key) (.text text) = result at registry cast ⊢
      obtain ⟨k, outcome⟩ := result
      cases outcome with
      | ok | error =>
          exact audience.of_eq (congrArg Registry.serial registry)
            (congrArg Registry.listeners registry) cast
  | enlist name =>
      rw [Hub.react]
      cases found : h.listener? name with
      | none => exact audience
      | some l =>
          refine ⟨audience.serial, ?_, audience.cast⟩
          intro l' among
          rcases List.mem_append.mp among with old | new
          · exact audience.listeners l' old
          · rw [List.mem_singleton.mp new]
            exact audience.cast l (List.mem_of_find?_eq_some found)
  | dismiss name =>
      exact ⟨audience.serial, fun l among => audience.listeners l (List.mem_filter.mp among).1,
        audience.cast⟩

theorem Audience.tell (audience : Audience P serial h) (l : Session.Listener) (key : SessionKey)
    (event : Session.Event) (index : Nat) : Audience P serial (h.tell l key event index).1 := by
  have registry := (hear_frame h l key event).2
  have heard : Audience P serial (h.hear l key event) :=
    audience.of_eq (congrArg Registry.serial registry) (congrArg Registry.listeners registry)
      (cast_hear h l key event)
  have reacted := heard.react key (l.reaction event.kind)
  rw [Hub.tell]
  generalize (h.hear l key event).react key (l.reaction event.kind) = reaction at reacted ⊢
  obtain ⟨k, cause⟩ := reaction
  cases cause with
  | none => exact reacted
  | some cause => exact reacted.of_eq rfl rfl rfl

theorem Audience.step (audience : Audience P serial h) (c : Call) (waits : ∀ l ∈ waiting c, P l) :
    Audience P serial (c.step h).1 ∧ ∀ m ∈ (c.step h).2, ∀ l ∈ waiting m, P l := by
  constructor
  · cases c with
    | openSession key =>
        rw [Call.step]
        cases h.phase key with
        | created | opened | closed => exact audience.of_eq rfl rfl rfl
    | deliver key event index rest faults =>
        cases rest with
        | nil => exact audience.of_eq rfl rfl rfl
        | cons l rest => exact audience.tell l key event index
    | closeEach count keys =>
        cases keys with
        | nil =>
            rw [Call.step]
            split
            · exact audience
            · exact audience.of_eq rfl rfl rfl
        | cons key keys => exact audience.of_eq rfl rfl rfl
    | goLive | closeSession | finishClose | announce | report | notify | closeAll =>
        exact audience.of_eq rfl rfl rfl
  · intro m among
    cases left_of_step h c m among with
    | read => exact audience.listeners
    | told => exact fun l later => waits l (List.mem_cons_of_mem _ later)
    | _ => exact List.forall_mem_nil _

end Gateway.Hub
