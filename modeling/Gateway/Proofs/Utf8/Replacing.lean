import Gateway.Proofs.Utf8.Decoding

/-!
Lenient decoding against a reference that has no states. The reference looks at the bytes left at
a boundary: it takes a character if one stands there, and otherwise replaces the shortest beginning
that no text has, with the continuation bytes behind it, or the truncated rest.
-/
namespace Gateway.Text

def Begins (bytes : List UInt8) : Prop := ∃ cs, bytes <+: encode cs

/-- The shortest of its beginnings that begins no text is the whole. -/
def Broken (bytes : List UInt8) : Prop :=
  ¬ Begins bytes ∧ ∀ front, front <+: bytes → front ≠ bytes → Begins front

def IsTail (b : UInt8) : Prop := 0x80 ≤ b.toNat ∧ b.toNat < 0xC0

theorem Begins.of_prefix {front bytes : List UInt8} (h : Begins bytes) (within : front <+: bytes) :
    Begins front := by
  obtain ⟨cs, begins⟩ := h
  exact ⟨cs, within.trans begins⟩

theorem begins_of_encodeChar {bytes : List UInt8} {c : Char}
    (h : bytes <+: String.utf8EncodeChar c) : Begins bytes := by
  refine ⟨[c], ?_⟩
  rwa [encode_cons, encode, List.flatMap_nil, List.append_nil]

theorem not_begins_of_refused {read : List UInt8} {b : UInt8} (stuck : Stuck read)
    (refused : ∀ c, ¬ read ++ [b] <+: String.utf8EncodeChar c) : ¬ Begins (read ++ [b]) := by
  rintro ⟨cs, begins⟩
  cases cs with
  | nil => exact absurd (List.prefix_nil.mp begins) (by simp)
  | cons c cs =>
      have front : String.utf8EncodeChar c <+: encode (c :: cs) := List.prefix_append _ _
      rcases List.prefix_or_prefix_of_prefix begins front with within | beyond
      · exact refused c within
      · have still : Stuck (read ++ [b]) := stuck_of_refused stuck refused
        exact still c beyond

theorem broken_of_refused {read : List UInt8} {b : UInt8} (stuck : Stuck read)
    (begins : Begins read) (refused : ∀ c, ¬ read ++ [b] <+: String.utf8EncodeChar c) :
    Broken (read ++ [b]) := by
  refine ⟨not_begins_of_refused stuck refused, ?_⟩
  intro front within proper
  rcases List.prefix_concat_iff.mp within with same | shorter
  · exact absurd same proper
  · exact begins.of_prefix shorter

theorem Broken.unique {first second bytes : List UInt8} (h : Broken first) (h' : Broken second)
    (within : first <+: bytes) (within' : second <+: bytes) : first = second := by
  by_cases same : first = second
  · exact same
  · rcases List.prefix_or_prefix_of_prefix within within' with shorter | shorter
    · exact absurd (h'.2 first shorter same) h.1
    · exact absurd (h.2 second shorter (Ne.symm same)) h'.1

/-- Tails in front of what does not begin with one can be told apart in one way only. -/
theorem tails_unique {tail tail' rest rest' : List UInt8} (same : tail ++ rest = tail' ++ rest')
    (tails : ∀ b ∈ tail, IsTail b) (tails' : ∀ b ∈ tail', IsTail b)
    (ends : ∀ b ∈ rest.head?, ¬ IsTail b) (ends' : ∀ b ∈ rest'.head?, ¬ IsTail b) :
    rest = rest' := by
  induction tail generalizing tail' with
  | nil =>
      cases tail' with
      | nil => exact same
      | cons b tail' =>
          obtain rfl : rest = b :: (tail' ++ rest') := same
          exact absurd (tails' b List.mem_cons_self) (ends b rfl)
  | cons a tail ih =>
      cases tail' with
      | nil =>
          obtain rfl : a :: (tail ++ rest) = rest' := same
          exact absurd (tails a List.mem_cons_self) (ends' a rfl)
      | cons b tail' =>
          rw [List.cons_append, List.cons_append] at same
          obtain ⟨rfl, behind⟩ := List.cons.inj same
          exact ih behind (fun c hc => tails c (List.mem_cons_of_mem _ hc))
            fun c hc => tails' c (List.mem_cons_of_mem _ hc)

end Gateway.Text

namespace Gateway.Utf8
open Text (Begins Broken IsTail Stuck)

/-- The characters that bytes stand for when what is malformed is replaced. -/
inductive Repaired : List UInt8 → List Char → Prop
  | nothing : Repaired [] []
  | character {c : Char} {rest : List UInt8} {cs : List Char} : Repaired rest cs →
      Repaired (String.utf8EncodeChar c ++ rest) (c :: cs)
  | replaced {broken tail rest : List UInt8} {cs : List Char} :
      Stuck (broken ++ (tail ++ rest)) → Broken broken → (∀ b ∈ tail, IsTail b) →
      (∀ b ∈ rest.head?, ¬ IsTail b) → Repaired rest cs →
      Repaired (broken ++ (tail ++ rest)) (replacement :: cs)
  | truncated {bytes : List UInt8} : bytes ≠ [] → Stuck bytes → Begins bytes →
      Repaired bytes [replacement]

theorem Repaired.unique {bytes : List UInt8} {cs ds : List Char} (h : Repaired bytes cs)
    (h' : Repaired bytes ds) : cs = ds := by
  induction h generalizing ds with
  | nothing =>
      generalize none_left : ([] : List UInt8) = bytes at h'
      cases h' with
      | nothing => rfl
      | @character c =>
          exact absurd (List.append_eq_nil_iff.mp none_left.symm).1 (Text.encodeChar_ne_nil c)
      | replaced _ broken =>
          obtain ⟨rfl, -⟩ := List.append_eq_nil_iff.mp none_left.symm
          exact absurd ⟨[], List.nil_prefix⟩ broken.1
      | truncated some_left => exact absurd none_left.symm some_left
  | @character c rest cs after ih =>
      have front : String.utf8EncodeChar c <+: String.utf8EncodeChar c ++ rest :=
        List.prefix_append _ _
      generalize same : String.utf8EncodeChar c ++ rest = bytes at h' front
      cases h' with
      | nothing => exact absurd (List.append_eq_nil_iff.mp same).1 (Text.encodeChar_ne_nil c)
      | character after' =>
          obtain ⟨rfl, rfl⟩ := Text.encodeChar_append_inj same
          rw [ih after']
      | replaced stuck => exact absurd front (stuck c)
      | truncated _ stuck => exact absurd front (stuck c)
  | @replaced broken tail rest cs stuck shortest tails ends after ih =>
      have front : broken <+: broken ++ (tail ++ rest) := List.prefix_append _ _
      generalize same : broken ++ (tail ++ rest) = bytes at h' front stuck
      cases h' with
      | nothing => exact absurd ⟨[], front⟩ shortest.1
      | @character c => exact absurd (List.prefix_append _ _) (stuck c)
      | replaced _ shortest' tails' ends' after' =>
          obtain rfl := shortest.unique shortest' front (List.prefix_append _ _)
          obtain rfl := Text.tails_unique (List.append_cancel_left same) tails tails' ends ends'
          rw [ih after']
      | truncated _ _ begins => exact absurd (begins.of_prefix front) shortest.1
  | @truncated bytes some_left stuck begins =>
      cases h' with
      | nothing => exact absurd rfl some_left
      | @character c => exact absurd (List.prefix_append _ _) (stuck c)
      | replaced _ shortest =>
          exact absurd (begins.of_prefix (List.prefix_append _ _)) shortest.1
      | truncated => rfl

theorem isContinuation_iff (b : UInt8) : isContinuation b = true ↔ IsTail b := by
  have all : ∀ b, isContinuation b = true ↔ 0x80 ≤ b.toNat ∧ b.toNat < 0xC0 := by
    apply forall_byte
    decide +kernel
  exact all b

theorem Reads.begins {read : List UInt8} {s : State} (h : Reads read s) : Begins read := by
  rcases h.unfinished with rfl | ⟨c, b, rest, eq⟩
  · exact ⟨[], List.nil_prefix⟩
  · exact Text.begins_of_encodeChar ⟨b :: rest, eq.symm⟩

namespace Decoder
variable {σ : Type} [Sink σ]

def feedChunks (d : Decoder σ) : List (List UInt8) → Decoder σ × List (Except Error Unit)
  | [] => (d, [])
  | chunk :: rest =>
    let (d, answer) := d.feed chunk
    let (d, answers) := d.feedChunks rest
    (d, answer :: answers)

theorem feed_append (d : Decoder σ) (first second : List UInt8) :
    d.feed (first ++ second) =
      match d.feed first with
      | (d', .ok ()) => d'.feed second
      | failed => failed := by
  induction first generalizing d with
  | nil => rfl
  | cons b rest ih =>
      rw [List.cons_append, feed, feed]
      cases d.decodeByte b with
      | mk d' outcome =>
          cases outcome with
          | ok event => exact ih d'
          | error e => rfl

theorem feedChunks_of_feed {d d' : Decoder σ} {chunks : List (List UInt8)}
    (h : d.feed chunks.flatten = (d', .ok ())) :
    d.feedChunks chunks = (d', chunks.map fun _ => .ok ()) := by
  induction chunks generalizing d with
  | nil =>
      obtain rfl := (Prod.mk.inj h).1
      rfl
  | cons chunk rest ih =>
      rw [List.flatten_cons, feed_append] at h
      rw [feedChunks]
      generalize d.feed chunk = fed at h ⊢
      obtain ⟨d'', outcome⟩ := fed
      cases outcome with
      | ok => simp only [ih h, List.map_cons]
      | error e => exact absurd (Prod.mk.inj h).2 (by simp)

/-- Where a lenient decoder stands: inside a character of which it has read some bytes, or in a run
of continuation bytes that share a placeholder. -/
inductive Stands (sink : σ) : Option (List UInt8) → Decoder σ → Prop
  | reading {read : List UInt8} {s : State} {offset : Nat} : Reads read s →
      Stands sink (some read) { sink, state := s, strict := false, offset }
  | folding {offset : Nat} :
      Stands sink none { sink, strict := false, offset, replacing := true }

/-- What the bytes to come stand for, from where the decoder stands. -/
def Owed (bytes : List UInt8) (cs : List Char) : Option (List UInt8) → Prop
  | some read => Repaired (read ++ bytes) cs
  | none => ∃ tail rest, bytes = tail ++ rest ∧ (∀ b ∈ tail, IsTail b)
      ∧ (∀ b ∈ rest.head?, ¬ IsTail b) ∧ Repaired rest cs

def Takes (d : Decoder σ) (sink : σ) (bytes : List UInt8) (cs : List Char) : Prop :=
  ∃ d', d.feed bytes = (d', .ok ()) ∧ d'.finish.2 = .ok ()
    ∧ d'.finish.1.sink = Sink.pushAll sink cs

variable {sink : σ} {d : Decoder σ} {rest : List UInt8} {b : UInt8} {cs : List Char}

theorem Takes.of_byte {d' : Decoder σ} {event : DecodeEvent}
    (first : d.decodeByte b = (d', .ok event)) (h : Takes d' sink rest cs) :
    Takes d sink (b :: rest) cs := by
  obtain ⟨d'', fed, finished⟩ := h
  refine ⟨d'', ?_, finished⟩
  rw [feed, first]
  exact fed

theorem Stands.finish {mode : Option (List UInt8)} (h : Stands sink mode d) :
    ∃ cs, Owed [] cs mode ∧ Takes d sink [] cs := by
  cases h with
  | @reading read s offset reads =>
      by_cases whole : read = []
      · subst whole
        have same : finish ({ sink, state := s, strict := false, offset } : Decoder σ)
            = ({ sink, state := s, strict := false, offset }, .ok ()) :=
          if_pos (reads.isAccept_iff.mpr rfl)
        refine ⟨[], .nothing, _, rfl, ?_⟩
        rw [same]
        exact ⟨rfl, rfl⟩
      · have cut : finish ({ sink, state := s, strict := false, offset } : Decoder σ)
            = ({ sink := Sink.push sink replacement, strict := false, offset }, .ok ()) :=
          if_neg (mt reads.isAccept_iff.mp whole)
        refine ⟨[replacement], ?_, _, rfl, ?_⟩
        · rw [Owed, List.append_nil]
          exact .truncated whole reads.stuck reads.begins
        · rw [cut]
          exact ⟨rfl, rfl⟩
  | folding =>
      refine ⟨[], ⟨[], [], rfl, ?_, ?_, .nothing⟩, _, rfl, rfl, rfl⟩
      · intro b hb
        exact absurd hb List.not_mem_nil
      · intro b hb
        exact absurd hb (by simp)

theorem take_reading {read : List UInt8} {s : State} (reads : Reads read s) (offset : Nat)
    (ih : ∀ {mode} {sink : σ} {d}, Stands sink mode d →
      ∃ cs, Owed rest cs mode ∧ Takes d sink rest cs) :
    ∃ cs, Owed (b :: rest) cs (some read)
      ∧ Takes { sink, state := s, strict := false, offset } sink (b :: rest) cs := by
  have judged := reads.judged b
  generalize step : s.step b = stepped at judged
  cases judged with
  | @accept s' c row bytes =>
      have between : Reads [] s' := .of_row row
      have stands : Stands (Sink.push sink c) (some [])
          { sink := Sink.push sink c, state := s', strict := false, offset := offset + 1 } :=
        .reading between
      obtain ⟨cs, owed, takes⟩ := ih stands
      have byte : decodeByte ({ sink, state := s, strict := false, offset } : Decoder σ) b
          = ({ sink := Sink.push sink c, state := s', strict := false, offset := offset + 1 },
            .ok (.emit c)) := by
        simp only [decodeByte, step, Bool.false_and, Bool.false_eq_true, if_false]
      refine ⟨c :: cs, ?_, takes.of_byte byte⟩
      rw [Owed, ← List.singleton_append, ← List.append_assoc, bytes]
      exact .character owed
  | @pending s' more =>
      have stands : Stands sink _ { sink, state := s', strict := false, offset := offset + 1 } :=
        .reading more
      obtain ⟨cs, owed, takes⟩ := ih stands
      have byte : decodeByte ({ sink, state := s, strict := false, offset } : Decoder σ) b
          = ({ sink, state := s', strict := false, offset := offset + 1 }, .ok .needMore) := by
        simp only [decodeByte, step, Bool.false_and, Bool.false_eq_true, if_false]
      refine ⟨cs, ?_, takes.of_byte byte⟩
      rw [Owed, ← List.singleton_append, ← List.append_assoc]
      exact owed
  | reject refused =>
      have stands : Stands (Sink.push sink replacement) none
          { sink := Sink.push sink replacement, strict := false
            offset := offset + 1, replacing := true } := .folding
      obtain ⟨cs, ⟨tail, more, rfl, tails, ends, owed⟩, takes⟩ := ih stands
      have byte : decodeByte ({ sink, state := s, strict := false, offset } : Decoder σ) b
          = ({ sink := Sink.push sink replacement, strict := false, offset := offset + 1,
               replacing := true }, .ok (.invalid (.invalidByte b offset s.rowNumber))) := by
        simp only [decodeByte, step, Bool.false_and, Bool.false_eq_true, if_false]
      refine ⟨replacement :: cs, ?_, takes.of_byte byte⟩
      have stuck : Stuck (read ++ b :: (tail ++ more)) :=
        Text.stuck_of_refused reads.stuck refused
      have broken := Text.broken_of_refused reads.stuck reads.begins refused
      rw [Owed]
      rw [← List.singleton_append, ← List.append_assoc] at stuck ⊢
      exact .replaced stuck broken tails ends owed

/-- A lenient decoder never fails, and adds what the bytes stand for. -/
theorem Stands.takes {mode : Option (List UInt8)} (h : Stands sink mode d) (bytes : List UInt8) :
    ∃ cs, Owed bytes cs mode ∧ Takes d sink bytes cs := by
  induction bytes generalizing mode sink d with
  | nil => exact h.finish
  | cons b rest ih =>
      cases h with
      | reading reads => exact take_reading reads _ ih
      | @folding offset =>
          by_cases continues : isContinuation b = true
          · have folded : decodeByte ({ sink, strict := false, offset, replacing := true } :
                Decoder σ) b = ({ sink, strict := false, offset := offset + 1, replacing := true },
                  .ok (.folded (.invalidByte b offset State.start.rowNumber))) :=
              if_pos continues
            have stands : Stands sink none
                { sink, strict := false, offset := offset + 1, replacing := true } := .folding
            obtain ⟨cs, ⟨tail, more, rfl, tails, owed⟩, takes⟩ := ih stands
            refine ⟨cs, ⟨b :: tail, more, rfl, ?_, owed⟩, takes.of_byte folded⟩
            intro b' among
            rcases List.mem_cons.mp among with rfl | behind
            · exact (isContinuation_iff b').mp continues
            · exact tails b' behind
          · -- A byte that is no continuation ends the run, as if none had been.
            have ended : decodeByte ({ sink, strict := false, offset, replacing := true } :
                Decoder σ) b = decodeByte { sink, strict := false, offset } b := by
              have apart : isContinuation b = false := by simpa using continues
              simp only [decodeByte, apart, Bool.and_false, Bool.false_eq_true, if_false]
            obtain ⟨cs, owed, d', fed, finished⟩ :=
              take_reading (b := b) (Reads.nothing 0) offset ih
            refine ⟨cs, ⟨[], b :: rest, rfl, ?_, ?_, owed⟩, d', ?_, finished⟩
            · intro b' among
              exact absurd among List.not_mem_nil
            · intro b' first
              obtain rfl : b = b' := by simpa using first
              exact mt (isContinuation_iff b).mpr continues
            · rw [feed] at fed ⊢
              rw [ended]
              exact fed

/-- Lenient decoding never fails. However the bytes are cut into chunks, it gives what they stand
for when what is malformed is replaced; there is only one such text. -/
theorem lenient_replaces (σ : Type) [Sink σ] [Sink.Lawful σ] (chunks : List (List UInt8)) :
    let (d, answers) := (lenient σ).feedChunks chunks
    (∀ answer ∈ answers, answer = .ok ()) ∧ d.finish.2 = .ok ()
      ∧ ∃ cs, Repaired chunks.flatten cs ∧ (∀ ds, Repaired chunks.flatten ds → ds = cs)
        ∧ d.finish.1.sink = Sink.pushAll Sink.empty cs ∧ d.finish.1.text = String.ofList cs := by
  have fresh : Stands Sink.empty (some []) (lenient σ) := .reading (.nothing 0)
  obtain ⟨cs, owed, d, fed, finished, sink⟩ := fresh.takes chunks.flatten
  rw [feedChunks_of_feed fed]
  refine ⟨?_, finished, cs, owed, fun ds other => other.unique owed, sink, ?_⟩
  · intro answer among
    obtain ⟨-, -, rfl⟩ := List.mem_map.mp among
    rfl
  · rw [text, sink]
    exact Sink.Lawful.text_pushAll cs

/-- A lead byte without its tail, continuation bytes behind the byte that it cannot take, and a
sequence that is cut off. -/
theorem lenient_replaces_abutting_runs :
    Repaired [0x61, 0xE2, 0x62, 0x80, 0x80, 0xF0, 0x9F] ['a', replacement, replacement]
      ∧ ((lenient String).feedChunks
          [[0x61, 0xE2], [0x62, 0x80], [0x80, 0xF0, 0x9F]]).1.finish.1.text
        = String.ofList ['a', replacement, replacement] := by
  have shown : ((lenient String).feedChunks
      [[0x61, 0xE2], [0x62, 0x80], [0x80, 0xF0, 0x9F]]).1.finish.1.text
        = String.ofList ['a', replacement, replacement] := by decide +kernel
  obtain ⟨-, -, cs, repaired, -, -, text⟩ :=
    lenient_replaces String [[0x61, 0xE2], [0x62, 0x80], [0x80, 0xF0, 0x9F]]
  obtain rfl := String.ofList_injective (text.symm.trans shown)
  exact ⟨repaired, shown⟩

end Decoder
end Gateway.Utf8
