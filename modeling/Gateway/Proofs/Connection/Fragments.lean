import Gateway.Connection.Frame
import Gateway.Proofs.Connection.Moves
import Gateway.Proofs.Utf8.Replacing

/-!
Messages in fragments. What a connection makes of the frames of one message is decided by the
message as a whole and by the sizes of its frames, wherever it is cut and whatever control frames
come in between: `fragments_give`.
-/
namespace Gateway.Connection

open Session (Message)

def Inbound.isAside : Inbound → Bool
  | .ping _ | .pong => true
  | _ => false

inductive Kind where
  | text
  | binary
  deriving DecidableEq, Repr

namespace Kind

def opcode : Kind → Nat
  | .text => 1
  | .binary => 2

def message? : Kind → List UInt8 → Option Message
  | .text, bytes => (wholeText? bytes).map .text
  | .binary, bytes => some (.binary bytes)

end Kind

structure Frame.IsAside (f : Frame) : Prop where
  masked : f.masked = true
  final : f.final = true
  opcode : f.opcode = 9 ∨ f.opcode = 10
  small : f.payload.length ≤ 125

/-- The frames of one message: its payload in pieces, of which the first has the opcode and the last
is marked as the last, with pings and pongs between the pieces. -/
inductive Fragments : Nat → List UInt8 → List Frame → Prop
  | last (opcode : Nat) (payload : List UInt8) : Fragments opcode payload [{ opcode, payload }]
  | more (opcode : Nat) (payload : List UInt8) {rest : List UInt8} {frames : List Frame} :
      Fragments 0 rest frames →
      Fragments opcode (payload ++ rest) ({ opcode, final := false, payload } :: frames)
  | aside {f : Frame} {rest : List UInt8} {frames : List Frame} : f.IsAside →
      Fragments 0 rest frames → Fragments 0 rest (f :: frames)

def readAll (limits : Limits) : Option Unfinished → List Frame → List Inbound
  | _, [] => []
  | unfinished, f :: rest =>
    match f.read limits unfinished with
    | (unfinished, none) => readAll limits unfinished rest
    | (_, some .failed) => [.failed]
    | (_, some (.close said)) => [.close said]
    | (unfinished, some i) => i :: readAll limits unfinished rest

/-- What frames give at last, behind what comes in between. -/
def Gives (limits : Limits) (u : Option Unfinished) (frames : List Frame) (last : Inbound) : Prop :=
  ∃ asides, (∀ i ∈ asides, i.isAside = true) ∧ readAll limits u frames = asides ++ [last]

/-- Nothing in the frames of a message is above the sizes that a connection takes. -/
def Limits.admits (limits : Limits) (payload : List UInt8) (frames : List Frame) : Prop :=
  (∀ f ∈ frames, f.payload.length ≤ limits.frame) ∧ payload.length ≤ limits.message

instance (limits : Limits) (payload : List UInt8) (frames : List Frame) :
    Decidable (limits.admits payload frames) := inferInstanceAs (Decidable (_ ∧ _))

def Kind.arrival (kind : Kind) (limits : Limits) (payload : List UInt8) (frames : List Frame) :
    Inbound :=
  if limits.admits payload frames then ((kind.message? payload).map .ofMessage).getD .failed
  else .failed

/-! ### Whole texts -/

open Utf8 (Decoder)

variable {bytes : List UInt8} {d : Decoder String} {s : String}

theorem wholeText_of_fed (fed : (Decoder.new String).feed bytes = (d, .ok ())) :
    wholeText? bytes = if d.isSequenceComplete then some d.text else none := by
  rw [wholeText?, fed]

theorem wholeText_of_broken {e : Utf8.Error}
    (broken : (Decoder.new String).feed bytes = (d, .error e)) (more : List UInt8) :
    wholeText? (bytes ++ more) = none := by
  rw [wholeText?, Decoder.feed_append, broken]

/-- What can be fed without a failure is a text, or lacks its end. -/
theorem wholeText_of_encode {cs : List Char} {rest : List UInt8} {state : Utf8.State}
    (fed : (Decoder.new String).feed bytes = (d, .ok ())) (reads : Utf8.Reads rest state)
    (held : d = { sink := Utf8.Sink.pushAll Utf8.Sink.empty cs, state, offset := bytes.length }) :
    wholeText? bytes = if rest = [] then some (String.ofList cs) else none := by
  have text : d.text = String.ofList cs := by
    rw [held]
    exact Utf8.Sink.Lawful.text_pushAll cs
  have complete : d.isSequenceComplete = true ↔ rest = [] := by
    rw [held]
    exact reads.isAccept_iff
  rw [wholeText_of_fed fed, text]
  simp only [complete]

theorem wholeText_eq_some : wholeText? bytes = some s ↔ bytes = Text.bytes s := by
  constructor
  · intro whole
    cases fed : (Decoder.new String).feed bytes with
    | mk d outcome =>
        cases outcome with
        | error e =>
            have broken := wholeText_of_broken fed []
            rw [List.append_nil, whole] at broken
            exact absurd broken (by simp)
        | ok =>
            obtain ⟨cs, rest, state, split, reads, -, held⟩ :=
              Session.Assembler.exists_of_feed fed
            rw [wholeText_of_encode fed reads held] at whole
            by_cases none_left : rest = []
            · rw [if_pos none_left] at whole
              rw [split, none_left, List.append_nil, ← Option.some.inj whole, Text.bytes,
                String.toList_ofList]
            · rw [if_neg none_left] at whole
              exact absurd whole (by simp)
  · rintro rfl
    have ok := (Decoder.decodeAll_exact String (Text.bytes s)).1.mpr ⟨s.toList, rfl⟩
    rw [Decoder.decodeAll] at ok
    cases fed : (Decoder.new String).feed (Text.bytes s) with
    | mk d outcome =>
        rw [fed] at ok
        cases outcome with
        | error e => exact absurd ok (by simp)
        | ok =>
            obtain ⟨cs, rest, state, split, reads, -, held⟩ :=
              Session.Assembler.exists_of_feed fed
            rw [wholeText_of_encode fed reads held]
            obtain ⟨same, none_left⟩ := (Text.encode_eq_append_iff reads.stuck).mp split
            rw [if_pos none_left, ← same, String.ofList_toList]

namespace Kind

variable {kind : Kind} {payload : List UInt8} {m : Message}

theorem size_message (whole : kind.message? payload = some m) : m.size = payload.length := by
  cases kind with
  | binary =>
      obtain rfl := Option.some.inj whole
      rfl
  | text =>
      obtain ⟨s, text, rfl⟩ := Option.map_eq_some_iff.mp whole
      rw [wholeText_eq_some.mp text, Text.bytes, Text.length_encode]
      have same := Utf8.Sink.size_ofList s.toList
      rw [String.ofList_toList] at same
      exact same

end Kind

/-! ### Frame by frame -/

variable {kind : Kind} {limits : Limits} {front rest : List UInt8} {opcode : Nat}
  {u : Option Unfinished} {f : Frame} {frames : List Frame}

/-- What a connection holds of a message of which the front has come in, and the opcode of the piece
that comes next. -/
inductive Awaits : Kind → List UInt8 → Nat → Option Unfinished → Prop
  | text : Awaits .text [] 1 none
  | binary : Awaits .binary [] 2 none
  | restOfText {front : List UInt8} {d : Decoder String} :
      (Decoder.new String).feed front = (d, .ok ()) →
      Awaits .text front 0 (some (.text d front.length))
  | restOfBinary {front : List UInt8} : Awaits .binary front 0 (some (.binary front))

/-- What a piece gives with which a message has come as far as it has. -/
inductive Takes (kind : Kind) (limit : Nat) (final : Bool) (front : List UInt8) : Reading → Prop
  | tooLong : limit < front.length → Takes kind limit final front (none, some .failed)
  | broken : (∀ more, kind.message? (front ++ more) = none) →
      Takes kind limit final front (none, some .failed)
  | cutShort : final = true → kind.message? front = none →
      Takes kind limit final front (none, some .failed)
  | part {u : Unfinished} : final = false → front.length ≤ limit → Awaits kind front 0 (some u) →
      Takes kind limit final front (some u, none)
  | whole {m : Message} : final = true → front.length ≤ limit → kind.message? front = some m →
      Takes kind limit final front (none, some (.ofMessage m))

theorem takes_text (fed : (Decoder.new String).feed front = (d, .ok ())) (limit : Nat)
    (f : Frame) :
    Takes .text limit f.final (front ++ f.payload) (readText limit d front.length f) := by
  have size : (front ++ f.payload).length = front.length + f.payload.length := List.length_append
  have whole := Decoder.feed_append (Decoder.new String) front f.payload
  rw [fed] at whole
  dsimp only at whole
  rw [readText]
  by_cases large : limit < front.length + f.payload.length
  · rw [if_pos large]
    exact .tooLong (by rwa [size])
  · have small : (front ++ f.payload).length ≤ limit := by
      rw [size]
      exact Nat.not_lt.mp large
    rw [if_neg large]
    cases next : d.feed f.payload with
    | mk d' outcome =>
        rw [next] at whole
        cases outcome with
        | error e =>
            exact .broken fun more => by rw [Kind.message?, wholeText_of_broken whole]; rfl
        | ok =>
            have text := wholeText_of_fed whole
            cases final : f.final with
            | false =>
                rw [← size]
                exact .part rfl small (.restOfText whole)
            | true =>
                dsimp only
                cases complete : d'.isSequenceComplete with
                | true =>
                    rw [complete, if_pos rfl] at text
                    exact .whole (m := .text d'.text) rfl small (by rw [Kind.message?, text]; rfl)
                | false =>
                    rw [complete, if_neg Bool.false_ne_true] at text
                    exact .cutShort rfl (by rw [Kind.message?, text]; rfl)

theorem takes_binary (limit : Nat) (front : List UInt8) (f : Frame) :
    Takes .binary limit f.final (front ++ f.payload) (readBinary limit front f) := by
  have size : (front ++ f.payload).length = front.length + f.payload.length := List.length_append
  rw [readBinary]
  by_cases large : limit < front.length + f.payload.length
  · rw [if_pos large]
    exact .tooLong (by rwa [size])
  · have small : (front ++ f.payload).length ≤ limit := by
      rw [size]
      exact Nat.not_lt.mp large
    rw [if_neg large]
    cases final : f.final with
    | true => exact .whole (m := .binary _) rfl small rfl
    | false => exact .part rfl small .restOfBinary

theorem read_of_tooLong (tooLong : limits.frame < f.payload.length) (u : Option Unfinished) :
    f.read limits u = (u, some .failed) := by
  unfold Frame.read
  rw [if_pos (by simp [tooLong])]

theorem Awaits.takes (awaits : Awaits kind front opcode u) (next : f.opcode = opcode)
    (masked : f.masked = true) (fits : f.payload.length ≤ limits.frame) :
    Takes kind limits.message f.final (front ++ f.payload) (f.read limits u) := by
  unfold Frame.read
  rw [if_neg (by simp [masked, fits])]
  cases awaits with
  | text =>
      rw [next, if_neg (by simp)]
      refine takes_text ?_ limits.message f
      rfl
  | binary =>
      rw [next, if_neg (by simp)]
      exact takes_binary limits.message [] f
  | restOfText fed =>
      rw [next, if_neg (by simp)]
      exact takes_text fed limits.message f
  | restOfBinary =>
      rw [next, if_neg (by simp)]
      exact takes_binary limits.message front f

theorem Frame.IsAside.reads (aside : f.IsAside) (fits : f.payload.length ≤ limits.frame)
    (u : Option Unfinished) : ∃ i, i.isAside = true ∧ f.read limits u = (u, some i) := by
  obtain ⟨masked, final, opcode, small⟩ := aside
  have large : 8 ≤ f.opcode := by omega
  unfold Frame.read
  rw [if_neg (by simp [masked, fits]), if_pos large, readControl,
    if_neg (by simp [final, small])]
  rcases opcode with ping | pong
  · exact ⟨.ping f.payload, rfl, by simp [ping]⟩
  · exact ⟨.pong, rfl, by simp [pong]⟩

/-! ### Frame after frame -/

variable {w : Option Unfinished} {last i : Inbound} {payload : List UInt8} {m : Message}

theorem gives_failed (failed : f.read limits u = (w, some .failed)) (frames : List Frame) :
    Gives limits u (f :: frames) .failed := by
  refine ⟨[], fun i among => absurd among List.not_mem_nil, ?_⟩
  rw [readAll, failed]
  rfl

theorem gives_message (whole : f.read limits u = (w, some (.ofMessage m))) :
    Gives limits u [f] (.ofMessage m) := by
  refine ⟨[], fun i among => absurd among List.not_mem_nil, ?_⟩
  rw [readAll, whole]
  cases m with
  | text | binary => rfl

theorem Gives.behind_part (gives : Gives limits w frames last)
    (part : f.read limits u = (w, none)) : Gives limits u (f :: frames) last := by
  obtain ⟨asides, between, reads⟩ := gives
  refine ⟨asides, between, ?_⟩
  rw [readAll, part]
  exact reads

theorem Gives.behind_aside (gives : Gives limits w frames last)
    (read : f.read limits u = (w, some i)) (aside : i.isAside = true) :
    Gives limits u (f :: frames) last := by
  obtain ⟨asides, between, reads⟩ := gives
  refine ⟨i :: asides, List.forall_mem_cons.mpr ⟨aside, between⟩, ?_⟩
  rw [readAll, read, List.cons_append, ← reads]
  cases i with
  | ping | pong => rfl
  | text | binary | close | failed | ended | idle => exact absurd aside Bool.false_ne_true

theorem arrival_of_unreadable (unreadable : kind.message? payload = none) :
    kind.arrival limits payload frames = .failed := by
  rw [Kind.arrival, unreadable]
  exact ite_self _

theorem arrival_of_large (large : limits.message < payload.length) :
    kind.arrival limits payload frames = .failed :=
  if_neg fun admitted => Nat.not_le.mpr large admitted.2

theorem arrival_of_message (admitted : limits.admits payload frames)
    (whole : kind.message? payload = some m) :
    kind.arrival limits payload frames = .ofMessage m := by
  rw [Kind.arrival, if_pos admitted, whole]
  rfl

/-- A frame that fits adds nothing to the verdict on the message. -/
theorem arrival_cons (fits : f.payload.length ≤ limits.frame) :
    kind.arrival limits payload (f :: frames) = kind.arrival limits payload frames := by
  have same : limits.admits payload (f :: frames) ↔ limits.admits payload frames := by
    simp [Limits.admits, fits]
  rw [Kind.arrival, Kind.arrival]
  simp only [same]

theorem gives_tooLong (tooLong : limits.frame < f.payload.length) (u : Option Unfinished)
    (frames : List Frame) (kind : Kind) (payload : List UInt8) :
    Gives limits u (f :: frames) (kind.arrival limits payload (f :: frames)) := by
  have refused : kind.arrival limits payload (f :: frames) = .failed :=
    if_neg fun admitted => Nat.not_le.mpr tooLong (admitted.1 f List.mem_cons_self)
  rw [refused]
  exact gives_failed (read_of_tooLong tooLong u) frames

theorem Awaits.gives_last (awaits : Awaits kind front opcode u) (next : f.opcode = opcode)
    (masked : f.masked = true) (final : f.final = true) (fits : f.payload.length ≤ limits.frame) :
    Gives limits u [f] (kind.arrival limits (front ++ f.payload) [f]) := by
  have takes := awaits.takes next masked fits
  generalize read : f.read limits u = reading at takes
  cases takes with
  | tooLong large =>
      rw [arrival_of_large large]
      exact gives_failed read []
  | broken unreadable =>
      have whole := unreadable []
      rw [List.append_nil] at whole
      rw [arrival_of_unreadable whole]
      exact gives_failed read []
  | cutShort _ unreadable =>
      rw [arrival_of_unreadable unreadable]
      exact gives_failed read []
  | part unfinished => exact absurd (final.symm.trans unfinished) (by simp)
  | whole _ small message =>
      have admitted : limits.admits (front ++ f.payload) [f] :=
        ⟨fun g among => by rw [List.mem_singleton.mp among]; exact fits, small⟩
      rw [arrival_of_message admitted message]
      exact gives_message read

theorem Awaits.gives_more (awaits : Awaits kind front opcode u) (next : f.opcode = opcode)
    (masked : f.masked = true) (unfinished : f.final = false)
    (fits : f.payload.length ≤ limits.frame)
    (rest_gives : ∀ w, Awaits kind (front ++ f.payload) 0 w →
      Gives limits w frames (kind.arrival limits (front ++ f.payload ++ rest) frames)) :
    Gives limits u (f :: frames)
      (kind.arrival limits (front ++ f.payload ++ rest) (f :: frames)) := by
  have takes := awaits.takes next masked fits
  generalize read : f.read limits u = reading at takes
  cases takes with
  | tooLong large =>
      have larger : limits.message < (front ++ f.payload ++ rest).length := by
        rw [List.length_append]
        exact Nat.lt_of_lt_of_le large (Nat.le_add_right _ _)
      rw [arrival_of_large larger]
      exact gives_failed read frames
  | broken unreadable =>
      rw [arrival_of_unreadable (unreadable rest)]
      exact gives_failed read frames
  | cutShort final | whole final => exact absurd (unfinished.symm.trans final) (by simp)
  | part _ _ awaits' =>
      rw [arrival_cons fits]
      exact (rest_gives _ awaits').behind_part read

/-- However much of a message has come in before, the rest of it gives the message or a failure. -/
theorem gives_rest (sent : Fragments opcode rest frames) (awaits : Awaits kind front opcode u) :
    Gives limits u frames (kind.arrival limits (front ++ rest) frames) := by
  induction sent generalizing front u with
  | last opcode payload =>
      by_cases fits : payload.length ≤ limits.frame
      · exact awaits.gives_last (f := { opcode, payload }) rfl rfl rfl fits
      · exact gives_tooLong (f := { opcode, payload }) (Nat.not_le.mp fits) u [] kind _
  | more opcode payload _ ih =>
      by_cases fits : payload.length ≤ limits.frame
      · rw [← List.append_assoc]
        refine awaits.gives_more (f := { opcode, final := false, payload }) rfl rfl rfl fits ?_
        exact fun w awaits' => ih awaits'
      · exact gives_tooLong (f := { opcode, final := false, payload }) (Nat.not_le.mp fits) u _
          kind _
  | @aside f rest frames within _ ih =>
      by_cases fits : f.payload.length ≤ limits.frame
      · obtain ⟨i, aside, read⟩ := within.reads fits u
        rw [arrival_cons fits]
        exact (ih awaits).behind_aside read aside
      · exact gives_tooLong (Nat.not_le.mp fits) u frames kind _

/-- The frames of one message give the message, if it is one and nothing of it is above the sizes
that the connection takes, and a failure otherwise. -/
theorem fragments_give (limits : Limits) (sent : Fragments kind.opcode payload frames) :
    Gives limits none frames (kind.arrival limits payload frames) := by
  cases kind with
  | text => exact gives_rest sent (Awaits.text : Awaits .text [] _ _)
  | binary => exact gives_rest sent (Awaits.binary : Awaits .binary [] _ _)

end Gateway.Connection
