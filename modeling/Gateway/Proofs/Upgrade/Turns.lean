import Gateway.Upgrade.Exchange

/-!
Exchanges that come between one another. Each goes in turns of its own, on a hub that the others
change; so one exchange among many is one exchange alone, whatever happens elsewhere.
-/
namespace Gateway.Upgrade

/-- What comes next, as one exchange sees it. -/
inductive Turn where
  | step
  | drop
  | report (o : Outcome)
  /-- What happens elsewhere can change the hub. -/
  | elsewhere (f : Hub → Hub)

namespace Turn

def isOwn : Turn → Bool
  | .step | .drop => true
  | .report _ | .elsewhere _ => false

/-- The exchange is under way before it is dropped. -/
def begins : List Turn → Bool
  | [] => false
  | .step :: _ => true
  | .drop :: _ => false
  | .report _ :: rest | .elsewhere _ :: rest => begins rest

def outside : List Turn → List Outcome
  | [] => []
  | .report o :: rest => o :: outside rest
  | .step :: rest | .drop :: rest | .elsewhere _ :: rest => outside rest

end Turn

namespace Exchange

def turn (c : Container) (h : Hub) (x : Exchange) : Turn → Hub × Exchange
  | .step => x.step c h
  | .drop => x.abandon h
  | .report o => ((x.fire h o).1, (x.fire h o).2.1)
  | .elsewhere f => (f h, x)

def play (c : Container) (h : Hub) (x : Exchange) : List Turn → Hub × Exchange
  | [] => (h, x)
  | t :: rest => (x.turn c h t).2.play c (x.turn c h t).1 rest

end Exchange

/-- A turn of one exchange among those that share a hub. -/
def turnAmong (c : Container) (h : Hub) (xs : List Exchange) (i : Nat) (t : Turn) :
    Hub × List Exchange :=
  match xs[i]? with
  | some x => ((x.turn c h t).1, xs.set i (x.turn c h t).2)
  | none => (h, xs)

def playAmong (c : Container) (h : Hub) (xs : List Exchange) :
    List (Nat × Turn) → Hub × List Exchange
  | [] => (h, xs)
  | (i, t) :: rest => playAmong c (turnAmong c h xs i t).1 (turnAmong c h xs i t).2 rest

/-- Turns as one exchange sees them: its own, and of the others what they do to the hub. -/
def seenBy (i : Nat) (c : Container) (h : Hub) (xs : List Exchange) :
    List (Nat × Turn) → List Turn
  | [] => []
  | (j, t) :: rest =>
    (if j = i then t else .elsewhere fun h => (turnAmong c h xs j t).1)
      :: seenBy i c (turnAmong c h xs j t).1 (turnAmong c h xs j t).2 rest

/-- Among others an exchange goes as it goes alone, on a hub that changes between its turns. -/
theorem playAmong_alone {i : Nat} {x : Exchange} (c : Container) (h : Hub) (xs : List Exchange)
    (turns : List (Nat × Turn)) (present : xs[i]? = some x) :
    (playAmong c h xs turns).1 = (x.play c h (seenBy i c h xs turns)).1
      ∧ (playAmong c h xs turns).2[i]? = some (x.play c h (seenBy i c h xs turns)).2 := by
  induction turns generalizing h xs x with
  | nil => exact ⟨rfl, present⟩
  | cons next rest ih =>
      obtain ⟨j, t⟩ := next
      rw [playAmong, seenBy, Exchange.play]
      by_cases own : j = i
      · subst own
        have within : j < xs.length := (List.getElem?_eq_some_iff.mp present).1
        have now : turnAmong c h xs j t = ((x.turn c h t).1, xs.set j (x.turn c h t).2) := by
          simp only [turnAmong, present]
        rw [if_pos rfl, now]
        exact ih _ _ (by rw [List.getElem?_set_self within])
      · have still : (turnAmong c h xs j t).2[i]? = some x := by
          rw [turnAmong]
          split
          · rwa [List.getElem?_set_ne own]
          · exact present
        rw [if_neg own]
        exact ih _ _ still

end Gateway.Upgrade
