/-!
Texts as bytes of UTF-8. Every text has its bytes; of lists of bytes, only the well-formed ones
stand for a text.
-/
namespace Gateway.Text

def encode (cs : List Char) : List UInt8 := cs.flatMap String.utf8EncodeChar

def bytes (s : String) : List UInt8 := encode s.toList

def ofBytes? (bs : List UInt8) : Option String := String.fromUTF8? ⟨bs.toArray⟩

def byteLength : List Char → Nat
  | [] => 0
  | c :: rest => c.utf8Size + byteLength rest

theorem encode_append (cs ds : List Char) : encode (cs ++ ds) = encode cs ++ encode ds := by
  simp [encode]

@[simp] theorem length_encode (cs : List Char) : (encode cs).length = byteLength cs := by
  induction cs with
  | nil => rfl
  | cons c rest ih =>
    simp only [encode, List.flatMap_cons, List.length_append, String.length_utf8EncodeChar,
      byteLength] at ih ⊢
    rw [ih]

theorem byteLength_append (cs ds : List Char) :
    byteLength (cs ++ ds) = byteLength cs + byteLength ds := by
  rw [← length_encode, ← length_encode, ← length_encode, encode_append, List.length_append]

end Gateway.Text
