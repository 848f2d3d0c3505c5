import Gateway.Utf8.Decoder

/-!
Feeding under a limit, against feeding without one. The two agree up to where the limit stops the
one, so the result depends on the bytes and not on the chunks they come in.
-/
namespace Gateway.Utf8.Decoder
variable {σ : Type} [Sink σ]

/-- Where feeding under a limit stops: at the end, over the limit, or at the first failure. -/
inductive Limited (d : Decoder σ) (limit : Nat) (bytes : List UInt8) :
    Decoder σ × Except Error Bool → Prop
  | whole {d' : Decoder σ} : d.feed bytes = (d', .ok ()) → d'.size ≤ limit →
      Limited d limit bytes (d', .ok true)
  | beyond {before after : List UInt8} {d' : Decoder σ} : bytes = before ++ after →
      d.feed before = (d', .ok ()) → limit < d'.size → Limited d limit bytes (d', .ok false)
  | broken {before after : List UInt8} {b : UInt8} {d' d'' : Decoder σ} {e : Error} :
      bytes = before ++ b :: after → d.feed before = (d', .ok ()) → d'.size ≤ limit →
      d'.decodeByte b = (d'', .error e) → Limited d limit bytes (d'', .error e)

theorem feed_cons_of_ok {d d' : Decoder σ} {b : UInt8} {event : DecodeEvent}
    (h : d.decodeByte b = (d', .ok event)) (rest : List UInt8) :
    d.feed (b :: rest) = d'.feed rest := by
  rw [feed, h]

theorem Limited.of_cons {d d' : Decoder σ} {limit : Nat} {b : UInt8} {rest : List UInt8}
    {event : DecodeEvent} {result : Decoder σ × Except Error Bool}
    (first : d.decodeByte b = (d', .ok event)) (h : Limited d' limit rest result) :
    Limited d limit (b :: rest) result := by
  cases h with
  | whole fed small => exact .whole ((feed_cons_of_ok first _).trans fed) small
  | beyond split fed large =>
      exact .beyond (congrArg (List.cons b) split) ((feed_cons_of_ok first _).trans fed) large
  | broken split fed small failed =>
      exact .broken (congrArg (List.cons b) split) ((feed_cons_of_ok first _).trans fed) small
        failed

theorem feedLimited_of_over {d : Decoder σ} {limit : Nat} (h : limit < d.size)
    (bytes : List UInt8) : d.feedLimited limit bytes = (d, .ok false) := by
  cases bytes with
  | nil => rw [feedLimited, decide_eq_false (Nat.not_le.mpr h)]
  | cons b rest => rw [feedLimited, if_pos h]

theorem limited (d : Decoder σ) (limit : Nat) (bytes : List UInt8) :
    Limited d limit bytes (d.feedLimited limit bytes) := by
  induction bytes generalizing d with
  | nil =>
      by_cases large : limit < d.size
      · rw [feedLimited_of_over large]
        exact .beyond (List.nil_append []).symm rfl large
      · rw [feedLimited, decide_eq_true (Nat.not_lt.mp large)]
        exact .whole rfl (Nat.not_lt.mp large)
  | cons b rest ih =>
      by_cases large : limit < d.size
      · rw [feedLimited_of_over large]
        exact .beyond (List.nil_append (b :: rest)).symm rfl large
      · rw [feedLimited, if_neg large]
        cases first : d.decodeByte b with
        | mk d' outcome =>
            cases outcome with
            | ok event => exact (ih d').of_cons first
            | error e =>
                exact .broken (List.nil_append (b :: rest)).symm rfl (Nat.not_lt.mp large) first

/-- A second chunk goes on where the first one ended, if the first one was taken whole. -/
theorem feedLimited_append (d : Decoder σ) (limit : Nat) (first second : List UInt8) :
    d.feedLimited limit (first ++ second) =
      match d.feedLimited limit first with
      | (d', .ok true) => d'.feedLimited limit second
      | stopped => stopped := by
  induction first generalizing d with
  | nil =>
      by_cases large : limit < d.size
      · rw [feedLimited_of_over large, feedLimited_of_over large]
      · rw [feedLimited, decide_eq_true (Nat.not_lt.mp large), List.nil_append]
  | cons b rest ih =>
      by_cases large : limit < d.size
      · rw [feedLimited_of_over large, feedLimited_of_over large]
      · rw [List.cons_append, feedLimited, feedLimited, if_neg large, if_neg large]
        cases step : d.decodeByte b with
        | mk d' outcome =>
            cases outcome with
            | ok event => exact ih d'
            | error e => rfl

theorem size_of_feedLimited {d d' : Decoder σ} {limit : Nat} {bytes : List UInt8}
    (h : d.feedLimited limit bytes = (d', .ok true)) : d'.size ≤ limit := by
  have stopped := limited d limit bytes
  rw [h] at stopped
  cases stopped with
  | whole fed small => exact small

end Gateway.Utf8.Decoder
