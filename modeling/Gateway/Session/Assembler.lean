import Gateway.Session.Message
import Gateway.Utf8.Decoder

/-!
Reassembling text messages from frames. Frames are decoded as they come, so that only decoded text
is held. A failure drops the message in progress and leaves the assembler ready for the next one.
-/
namespace Gateway.Session

structure Assembler where
  decoder : Utf8.Decoder String := .new String
  limit : Nat
  deriving DecidableEq, Repr

namespace Assembler

def new (limit : Nat) : Assembler := { limit }

def discard (a : Assembler) : Assembler := { a with decoder := a.decoder.reset.takeText.1 }

/-- Bytes of decoded text held for the message in progress. -/
def pendingSize (a : Assembler) : Nat := a.decoder.size

/-- Takes one frame. The last frame of a message gives the message; any other gives nothing yet. -/
def onFrame (a : Assembler) (payload : List UInt8) (final : Bool) :
    Assembler × Except Error (Option String) :=
  match a.decoder.feedLimited a.limit payload with
  | (d, .ok false) => (discard { a with decoder := d }, .error (.messageTooLarge a.limit))
  | (d, .error e) => (discard { a with decoder := d }, .error (.invalidText e))
  | (d, .ok true) =>
    if final then
      match d.finish with
      | (d, .error e) => (discard { a with decoder := d }, .error (.invalidText e))
      | (d, .ok ()) =>
        let (d, text) := d.reset.takeText
        ({ a with decoder := d }, .ok (some text))
    else ({ a with decoder := d }, .ok none)

end Assembler
end Gateway.Session
