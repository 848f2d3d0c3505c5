import Gateway.Proofs.Connection.Stages

/-!
The course of a connection, as its endpoint sees it: it is opened, gets messages, perhaps hears of
one error, and is closed. A callback that panics cuts the course short.
-/
namespace Gateway.Session

/-- A callback, and what it panicked with. -/
abbrev Outcome := Callback × Option PanicPayload

namespace Endpoint

def outcomes (e : Endpoint) (heard : List Callback) : List Callback → List Outcome
  | [] => []
  | c :: rest => (c, e.panic? heard c) :: e.outcomes (heard ++ [c]) rest

theorem outcomes_snoc (e : Endpoint) (heard made : List Callback) (c : Callback) :
    e.outcomes heard (made ++ [c])
      = e.outcomes heard made ++ [(c, e.panic? (heard ++ made) c)] := by
  induction made generalizing heard with
  | nil => rw [List.append_nil]; rfl
  | cons d rest ih => rw [List.cons_append, outcomes, outcomes, ih]; simp

end Endpoint

def Callback.error? : Callback → Option Error
  | .failed e => some e
  | _ => none

/-- The errors that the listeners are told of after a callback: its panic, and the error that the
callback was about. -/
def Outcome.errors (o : Outcome) : List Error :=
  (o.2.map fun payload => Error.endpointPanicked payload.message).toList ++ o.1.error?.toList

/-- What an endpoint has had when only the last callback is still to come. After a callback that
panicked there is nothing more. -/
inductive Course.Leaving : List Outcome → Prop
  | intro {first : Option PanicPayload} {data errs : List Outcome}
      (messages : ∀ o ∈ data, o.1.isData = true)
      (once : errs = [] ∨ ∃ e p, e.isPanic = false ∧ errs = [(.failed e, p)])
      (unopened : first ≠ none → data = [] ∧ errs = [])
      (stops : ∀ before o after, data = before ++ o :: after → o.2 ≠ none →
        after = [] ∧ errs = []) : Leaving ((.opened, first) :: data ++ errs)

/-- All that an endpoint has in one connection. -/
inductive Course : List Outcome → Prop
  | closed {os : List Outcome} (leaving : Course.Leaving os) (last : Option PanicPayload) :
      Course (os ++ [(.closed, last)])

/-- What an endpoint has had while a connection goes on: messages, and no panic. -/
inductive Course.Open : List Outcome → Prop
  | intro {data : List Outcome} (messages : ∀ o ∈ data, o.1.isData = true ∧ o.2 = none) :
      Open ((.opened, none) :: data)

namespace Course

variable {os : List Outcome} {c : Callback}

theorem Open.data (talk : Open os) (message : c.isData = true) : Open (os ++ [(c, none)]) := by
  obtain ⟨messages⟩ := talk
  refine .intro ?_
  intro o among
  rcases List.mem_append.mp among with old | new
  · exact messages o old
  · rw [List.mem_singleton.mp new]
    exact ⟨message, rfl⟩

theorem leaving_opened (p : Option PanicPayload) : Leaving [(.opened, p)] := by
  have no_data : Leaving ((.opened, p) :: [] ++ []) :=
    .intro (by simp) (.inl rfl) (fun _ => ⟨rfl, rfl⟩)
      fun before o after split => absurd split (by simp)
  exact no_data

theorem Open.leaving_data (talk : Open os) (message : c.isData = true)
    (p : Option PanicPayload) : Leaving (os ++ [(c, p)]) := by
  obtain ⟨messages⟩ := talk
  rename_i data
  rw [← List.append_nil ((Callback.opened, none) :: data ++ [(c, p)])]
  rw [List.cons_append]
  refine .intro ?_ (.inl rfl) (fun panicked => absurd rfl panicked) ?_
  · intro o among
    rcases List.mem_append.mp among with old | new
    · exact (messages o old).1
    · rw [List.mem_singleton.mp new]
      exact message
  · intro before o after split panicked
    refine ⟨?_, rfl⟩
    rcases List.eq_nil_or_concat after with none_left | ⟨after', last, rfl⟩
    · exact none_left
    · -- Only the last message can have panicked, and this one is earlier.
      rw [List.concat_eq_append, ← List.cons_append, ← List.append_assoc] at split
      have earlier := (List.append_inj_left' split rfl)
      have among : o ∈ data := by rw [earlier]; simp
      exact absurd (messages o among).2 panicked

theorem Open.leaving (talk : Open os) : Leaving os := by
  obtain ⟨messages⟩ := talk
  rename_i data
  rw [← List.append_nil ((Callback.opened, none) :: data)]
  refine .intro (fun o among => (messages o among).1) (.inl rfl)
    (fun panicked => absurd rfl panicked) ?_
  intro before o after split panicked
  have among : o ∈ data := by rw [split]; simp
  exact absurd (messages o among).2 panicked

theorem Open.leaving_failed (talk : Open os) {e : Error} (other : e.isPanic = false)
    (p : Option PanicPayload) : Leaving (os ++ [(.failed e, p)]) := by
  obtain ⟨messages⟩ := talk
  rename_i data
  refine .intro (fun o among => (messages o among).1) (.inr ⟨e, p, other, rfl⟩)
    (fun panicked => absurd rfl panicked) ?_
  intro before o after split panicked
  have among : o ∈ data := by rw [split]; simp
  exact absurd (messages o among).2 panicked

end Course
end Gateway.Session
