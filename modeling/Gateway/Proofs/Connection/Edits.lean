import Gateway.Proofs.Connection.Keeping

/-!
What a pump does to other sessions than its own: whatever step it takes between its calls, it gives
them messages at most.
-/
namespace Gateway.Connection.Pump

variable {h k l : Hub} {p : Pump} {key : SessionKey}

/-- One session has been edited, and for the rest sessions have accepted messages. -/
def Edits (key : SessionKey) (h k : Hub) : Prop := ∃ g, Hub.Feeds (h.modify key g) k

theorem edits_iff : Edits key h k ↔ ∀ other s, key ≠ other → h.session? other = some s →
    s.holder ≠ .session → ∃ t, k.session? other = some t ∧ s.Feeds t := by
  constructor
  · rintro ⟨g, fed⟩ other s apart found held
    refine fed other s ?_ held
    rw [Hub.session?_modify, if_neg apart, found]
  · intro fed
    -- The edit turns the session into what it is now. One that is gone keeps its queue, so that it
    -- does not count.
    refine ⟨fun s => (k.session? key).getD { s with holder := .session }, ?_⟩
    intro other s found held
    rw [Hub.session?_modify] at found
    by_cases same : key = other
    · subst same
      rw [if_pos rfl] at found
      obtain ⟨was, -, rfl⟩ := Option.map_eq_some_iff.mp found
      cases now : k.session? key with
      | none =>
          rw [now] at held
          exact absurd rfl held
      | some t => exact ⟨t, rfl, t.feeds_refl⟩
    · rw [if_neg same] at found
      exact fed other s same found held

theorem edits_of_feeds (fed : Hub.Feeds h k) : Edits key h k :=
  edits_iff.mpr fun other s _ found held => fed other s found held

theorem Edits.trans (first : Edits key h k) (second : Edits key k l) : Edits key h l := by
  rw [edits_iff] at first second ⊢
  intro other s apart found held
  obtain ⟨t, now, fed⟩ := first other s apart found held
  obtain ⟨u, later, fed'⟩ := second other t apart now (by rwa [fed.holder])
  exact ⟨u, later, fed.trans fed'⟩

theorem edits_byPump (key : SessionKey) : KeptByPump key (Edits key) where
  of_eq same _ _ := edits_of_feeds (Hub.feeds_of_sessions same)
  trans := Edits.trans
  send h other m := edits_of_feeds (Hub.feeds_send h other m)
  requestClose h other := edits_of_feeds (Hub.feeds_requestClose h other)
  edit _ f _ := ⟨f, Hub.feeds_of_sessions rfl⟩

/-- Whatever a pump does between its calls, to sessions that it does not serve it gives messages at
most. -/
theorem step_edits (idle : p.calls = []) (h : Hub) (choice : Option Choice) :
    Edits p.key h (p.step h choice).1 :=
  (edits_byPump p.key).step h rfl idle choice

end Gateway.Connection.Pump
