import Gateway.Proofs.Utf8.Limited
import Gateway.Proofs.Utf8.Resuming

/-!
Feeding under a limit, exactly. The decoder goes as it goes byte by byte and stops at the earliest
point at which a byte has failed or the sink holds too much; where nothing stops it, it has done
what feeding without a limit does. Chunks leave no trace, and the sink holds at most one character
beyond the limit.
-/
namespace Gateway.Utf8.Decoder
variable {σ : Type} [Sink σ] {d d' : Decoder σ} {limit : Nat} {b : UInt8}
  {bytes read rest : List UInt8} {event : DecodeEvent} {e : Error}

/-- The decoder behind bytes that are read one by one, whatever each of them does. -/
def run (d : Decoder σ) (bytes : List UInt8) : Decoder σ :=
  bytes.foldl (fun d b => (d.decodeByte b).1) d

def FailsAt (d : Decoder σ) (read : List UInt8) (e : Error) : Prop :=
  ∃ before b, read = before ++ [b] ∧ ((d.run before).decodeByte b).2 = .error e

/-- Nothing stops the decoder behind these bytes: the last of them has not failed, and the sink
holds at most `limit` units. -/
structure Passes (d : Decoder σ) (limit : Nat) (read : List UInt8) : Prop where
  sound : ∀ e, ¬ d.FailsAt read e
  within : (d.run read).size ≤ limit

def PassesBefore (d : Decoder σ) (limit : Nat) (read : List UInt8) : Prop :=
  ∀ shorter, shorter <+: read → shorter ≠ read → d.Passes limit shorter

/-- What bytes come to under a limit: the first of them that fails is reported, even if its
placeholder goes beyond the limit; where the sink goes beyond the limit first, this is the answer;
and bytes that all pass are read to the end. -/
inductive Bounded (d : Decoder σ) (limit : Nat) (bytes : List UInt8) :
    Decoder σ × Except Error Bool → Prop
  | failed {read : List UInt8} {e : Error} : read <+: bytes → d.PassesBefore limit read →
      d.FailsAt read e → Bounded d limit bytes (d.run read, .error e)
  | exceeded {read : List UInt8} : read <+: bytes → d.PassesBefore limit read →
      (∀ e, ¬ d.FailsAt read e) → limit < (d.run read).size →
      Bounded d limit bytes (d.run read, .ok false)
  | whole : d.PassesBefore limit bytes → d.Passes limit bytes →
      Bounded d limit bytes (d.run bytes, .ok true)

/-! ### One byte more -/

theorem not_failsAt_nil : ¬ d.FailsAt [] e := by
  rintro ⟨before, b, split, -⟩
  exact absurd split.symm (by simp)

theorem run_cons (first : d.decodeByte b = (d', .ok event)) : d.run (b :: read) = d'.run read := by
  have step : d.run (b :: read) = (d.decodeByte b).1.run read := rfl
  rw [step, first]

theorem failsAt_cons (first : d.decodeByte b = (d', .ok event)) :
    d.FailsAt (b :: read) e ↔ d'.FailsAt read e := by
  constructor
  · rintro ⟨before, last, split, failed⟩
    cases before with
    | nil =>
        obtain ⟨rfl, rfl⟩ := List.cons.inj split
        have passed : (d.decodeByte b).2 = .error e := failed
        rw [first] at passed
        exact absurd passed (by simp)
    | cons c before =>
        obtain ⟨rfl, behind⟩ := List.cons.inj split
        rw [run_cons first] at failed
        exact ⟨before, last, behind, failed⟩
  · rintro ⟨before, last, rfl, failed⟩
    rw [← run_cons first] at failed
    exact ⟨b :: before, last, rfl, failed⟩

theorem Passes.cons (first : d.decodeByte b = (d', .ok event)) (passes : d'.Passes limit read) :
    d.Passes limit (b :: read) where
  sound e := mt (failsAt_cons first).mp (passes.sound e)
  within := by
    rw [run_cons first]
    exact passes.within

theorem passesBefore_nil : d.PassesBefore limit [] := by
  intro shorter within proper
  exact absurd (List.prefix_nil.mp within) proper

theorem passesBefore_singleton (small : d.size ≤ limit) (b : UInt8) :
    d.PassesBefore limit [b] := by
  intro shorter within proper
  cases shorter with
  | nil => exact ⟨fun e => not_failsAt_nil, small⟩
  | cons c shorter =>
      obtain ⟨rfl, behind⟩ := List.cons_prefix_cons.mp within
      obtain rfl := List.prefix_nil.mp behind
      exact absurd rfl proper

theorem PassesBefore.cons (small : d.size ≤ limit) (first : d.decodeByte b = (d', .ok event))
    (earlier : d'.PassesBefore limit read) : d.PassesBefore limit (b :: read) := by
  intro shorter within proper
  cases shorter with
  | nil => exact ⟨fun e => not_failsAt_nil, small⟩
  | cons c shorter =>
      obtain ⟨rfl, behind⟩ := List.cons_prefix_cons.mp within
      exact (earlier shorter behind fun same => proper (congrArg (List.cons c) same)).cons first

theorem Bounded.cons {result : Decoder σ × Except Error Bool} (small : d.size ≤ limit)
    (first : d.decodeByte b = (d', .ok event)) (bounded : Bounded d' limit rest result) :
    Bounded d limit (b :: rest) result := by
  cases bounded with
  | failed within earlier fails =>
      rw [← run_cons first]
      exact .failed ((List.prefix_cons_inj b).mpr within) (earlier.cons small first)
        ((failsAt_cons first).mpr fails)
  | exceeded within earlier sound large =>
      rw [← run_cons first] at large ⊢
      exact .exceeded ((List.prefix_cons_inj b).mpr within) (earlier.cons small first)
        (fun e => mt (failsAt_cons first).mp (sound e)) large
  | whole earlier passes =>
      rw [← run_cons first]
      exact .whole (earlier.cons small first) (passes.cons first)

theorem bounded_feedLimited (d : Decoder σ) (limit : Nat) (bytes : List UInt8) :
    Bounded d limit bytes (d.feedLimited limit bytes) := by
  induction bytes generalizing d with
  | nil =>
      by_cases large : limit < d.size
      · rw [feedLimited_of_over large]
        exact .exceeded List.nil_prefix passesBefore_nil (fun e => not_failsAt_nil) large
      · have small := Nat.not_lt.mp large
        rw [feedLimited, decide_eq_true small]
        exact .whole passesBefore_nil ⟨fun e => not_failsAt_nil, small⟩
  | cons b rest ih =>
      by_cases large : limit < d.size
      · rw [feedLimited_of_over large]
        exact .exceeded List.nil_prefix passesBefore_nil (fun e => not_failsAt_nil) large
      · have small := Nat.not_lt.mp large
        rw [feedLimited, if_neg large]
        cases first : d.decodeByte b with
        | mk d' outcome =>
            cases outcome with
            | ok event => exact (ih d').cons small first
            | error e =>
                have stopped : d.run [b] = d' := congrArg Prod.fst first
                have fails : d.FailsAt [b] e := ⟨[], b, rfl, congrArg Prod.snd first⟩
                dsimp only
                rw [← stopped]
                exact .failed ((List.prefix_cons_inj b).mpr List.nil_prefix)
                  (passesBefore_singleton small b) fails

/-! ### Failures -/

theorem strict_decodeByte (d : Decoder σ) (b : UInt8) : (d.decodeByte b).1.strict = d.strict := by
  simp only [decodeByte]
  split
  · rfl
  · split
    · rfl
    · rfl
    · rfl

theorem strict_run (d : Decoder σ) (bytes : List UInt8) : (d.run bytes).strict = d.strict := by
  induction bytes generalizing d with
  | nil => rfl
  | cons b rest ih => exact (ih (d.decodeByte b).1).trans (strict_decodeByte d b)

theorem strict_of_decodeByte (failed : (d.decodeByte b).2 = .error e) : d.strict = true := by
  simp only [decodeByte] at failed
  split at failed
  · exact absurd failed (by simp)
  · split at failed
    · exact absurd failed (by simp)
    · exact absurd failed (by simp)
    · exact Classical.not_not.mp fun lenient => by simp [lenient] at failed

theorem FailsAt.strict (fails : d.FailsAt read e) : d.strict = true := by
  obtain ⟨before, b, -, failed⟩ := fails
  rw [← strict_run d before]
  exact strict_of_decodeByte failed

theorem Bounded.strict {result : Decoder σ × Except Error Bool}
    (bounded : Bounded d limit bytes result) (failed : result.2 = .error e) : d.strict = true := by
  cases bounded with
  | failed within earlier fails => exact fails.strict
  | exceeded | whole => exact absurd failed (by simp)

/-! ### Against feeding without a limit -/

theorem size_le_of_feed [Sink.Measured σ] {outcome : Except Error Unit}
    (fed : d.feed bytes = (d', outcome)) : d.size ≤ d'.size := by
  have grown := sink_feed d bytes
  rw [fed] at grown
  have size : d'.size = d.size + ((d.added bytes).map (Sink.units σ)).sum := by
    rw [Decoder.size, grown, Sink.size_pushAll, Decoder.size]
  omega

/-- A limit is kept to the end just when feeding without one succeeds and stays within it. -/
theorem feedLimited_eq_true_iff [Sink.Measured σ] :
    d.feedLimited limit bytes = (d', .ok true)
      ↔ d.feed bytes = (d', .ok ()) ∧ d'.size ≤ limit := by
  have stopped := limited d limit bytes
  constructor
  · intro kept
    rw [kept] at stopped
    cases stopped with
    | whole fed small => exact ⟨fed, small⟩
  · rintro ⟨fed, small⟩
    generalize d.feedLimited limit bytes = result at stopped
    cases stopped with
    | whole fed' small' =>
        obtain ⟨rfl, -⟩ := Prod.mk.inj (fed'.symm.trans fed)
        rfl
    | @beyond before after further split fed' large =>
        rw [split, feed_append_of_ok fed'] at fed
        exact absurd (size_le_of_feed fed) (by omega)
    | @broken before after b left failing e split fed' small' failed =>
        rw [split, feed_append_of_ok fed', feed_cons, failed] at fed
        exact absurd fed (by simp)

/-! ### Beyond the limit -/

theorem run_append_singleton (d : Decoder σ) (read : List UInt8) (b : UInt8) :
    d.run (read ++ [b]) = ((d.run read).decodeByte b).1 :=
  List.foldl_append

theorem sink_decodeByte_cases (d : Decoder σ) (b : UInt8) :
    (d.decodeByte b).1.sink = d.sink ∨ ∃ c, (d.decodeByte b).1.sink = Sink.push d.sink c := by
  rw [sink_decodeByte]
  cases (d.decodeByte b).2 with
  | error e => exact .inr ⟨replacement, rfl⟩
  | ok event =>
      cases event with
      | emit c => exact .inr ⟨c, rfl⟩
      | invalid e => exact .inr ⟨replacement, rfl⟩
      | needMore | folded e => exact .inl rfl

/-- The sink is within the limit, or one character more than a sink within the limit. -/
def WithinACharacter (limit : Nat) (d : Decoder σ) : Prop :=
  d.size ≤ limit ∨ ∃ sink c, d.sink = Sink.push sink c ∧ Sink.size sink ≤ limit
    ∧ d.size = Sink.size sink + Sink.units σ c

theorem PassesBefore.withinACharacter [Sink.Measured σ] (small : d.size ≤ limit)
    (earlier : d.PassesBefore limit read) : (d.run read).WithinACharacter limit := by
  rcases List.eq_nil_or_concat read with rfl | ⟨before, b, rfl⟩
  · exact .inl small
  · rw [List.concat_eq_append] at earlier ⊢
    have passes := earlier before (List.prefix_append before [b]) (by simp)
    rw [run_append_singleton]
    rcases sink_decodeByte_cases (d.run before) b with kept | ⟨c, pushed⟩
    · refine .inl ?_
      rw [Decoder.size, kept]
      exact passes.within
    · refine .inr ⟨(d.run before).sink, c, pushed, passes.within, ?_⟩
      rw [Decoder.size, pushed, Sink.Measured.size_push]

theorem Bounded.withinACharacter [Sink.Measured σ] {result : Decoder σ × Except Error Bool}
    (bounded : Bounded d limit bytes result) (small : d.size ≤ limit) :
    result.1.WithinACharacter limit := by
  cases bounded with
  | failed within earlier fails => exact earlier.withinACharacter small
  | exceeded within earlier sound large => exact earlier.withinACharacter small
  | whole earlier passes => exact .inl passes.within

/-! ### Chunks -/

/-- Feeds chunks under a limit, one call each, up to the first answer that is not `true`. -/
def feedLimitedChunks (d : Decoder σ) (limit : Nat) :
    List (List UInt8) → Decoder σ × Except Error Bool
  | [] => (d, .ok true)
  | chunk :: rest =>
    match d.feedLimited limit chunk with
    | (d', .ok true) => d'.feedLimitedChunks limit rest
    | stopped => stopped

theorem feedLimitedChunks_cons (d : Decoder σ) (limit : Nat) (chunk : List UInt8)
    (rest : List (List UInt8)) :
    d.feedLimitedChunks limit (chunk :: rest) = d.feedLimited limit (chunk ++ rest.flatten) := by
  induction rest generalizing d chunk with
  | nil =>
      rw [feedLimitedChunks, List.flatten_nil, List.append_nil]
      obtain ⟨d', outcome⟩ := d.feedLimited limit chunk
      cases outcome with
      | error e => rfl
      | ok kept =>
          cases kept with
          | false | true => rfl
  | cons next rest ih =>
      rw [feedLimitedChunks, feedLimited_append, List.flatten_cons]
      obtain ⟨d', outcome⟩ := d.feedLimited limit chunk
      cases outcome with
      | error e => rfl
      | ok kept =>
          cases kept with
          | false => rfl
          | true => exact ih d' next

/-- Feeding under a limit is bounded feeding: it comes to what the bytes come to one by one, up to
the first failure, which only strict mode has, or the first point beyond the limit; it keeps to the
limit just when feeding without one succeeds within it, and has then done the same; chunks change
nothing; and a sink that is within the limit at first is never more than one character beyond. -/
theorem feedLimited_is_bounded [Sink.Measured σ] (d : Decoder σ) (limit : Nat)
    (bytes : List UInt8) :
    Bounded d limit bytes (d.feedLimited limit bytes)
      ∧ (∀ e, (d.feedLimited limit bytes).2 = .error e → d.strict = true)
      ∧ (∀ d', d.feedLimited limit bytes = (d', .ok true)
        ↔ d.feed bytes = (d', .ok ()) ∧ d'.size ≤ limit)
      ∧ (∀ chunk rest, chunk ++ rest.flatten = bytes →
        d.feedLimitedChunks limit (chunk :: rest) = d.feedLimited limit bytes)
      ∧ (d.size ≤ limit → (d.feedLimited limit bytes).1.WithinACharacter limit) := by
  have bounded := bounded_feedLimited d limit bytes
  refine ⟨bounded, fun e => bounded.strict, fun d' => feedLimited_eq_true_iff, ?_,
    bounded.withinACharacter⟩
  rintro chunk rest rfl
  exact feedLimitedChunks_cons d limit chunk rest

/-- A failure whose placeholder goes beyond the limit is a failure, in chunks as well, and whatever
units the sink counts in. -/
theorem feedLimited_is_bounded_at_placeholder :
    let bytes := [0x61, 0xE2, 0x82, 0x62]
    let failed : Except Error Bool := .error (.invalidByte 0x62 3 2)
    ((new String).feedLimited 3 bytes).2 = failed
      ∧ ((new String).feedLimited 3 bytes).1.size = 3 + 1
      ∧ ((new String).feedLimitedChunks 3 [[0x61, 0xE2], [], [0x82, 0x62]]).2 = failed
      ∧ ((new String).feedLimited 3 bytes).1.WithinACharacter 3
      ∧ ((new Utf16).feedLimited 1 bytes).2 = failed
      ∧ ((new Utf16).feedLimited 1 bytes).1.WithinACharacter 1 := by
  intro bytes failed
  obtain ⟨-, -, -, chunks, within⟩ := feedLimited_is_bounded (new String) 3 bytes
  obtain ⟨-, -, -, -, within'⟩ := feedLimited_is_bounded (new Utf16) 1 bytes
  have fails : ((new String).feedLimited 3 bytes).2 = failed := by rfl
  refine ⟨fails, by decide +kernel, ?_, within (by decide), by rfl, within' (by decide)⟩
  rw [chunks _ _ rfl, fails]

end Gateway.Utf8.Decoder
