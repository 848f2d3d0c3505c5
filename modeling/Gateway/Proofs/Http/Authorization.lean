import Gateway.Http.Admin
import Gateway.Proofs.Utf8.Encoding

/-!
The admin API towards those who do not bring the key. What they are told depends on their request
alone, not on the server, its sessions or the key; all that they leave behind is a line in the
journal. Main statement: `Admin.answer_alike_without_key`.
-/
namespace Gateway.Http

/-! ### Values as text -/

/-- A character that can be read back out of a header value: one of ASCII that shows, the space or
the tab. -/
def IsReadable (ch : Char) : Prop := (0x20 ≤ ch.toNat ∧ ch.toNat < 0x7F) ∨ ch.toNat = 0x09

instance (ch : Char) : Decidable (IsReadable ch) := inferInstanceAs (Decidable (_ ∨ _))

theorem isTextByte_iff (b : UInt8) :
    isTextByte b = true ↔ (0x20 ≤ b.toNat ∧ b.toNat < 0x7F) ∨ b.toNat = 0x09 := by
  simp [isTextByte, UInt8.le_iff_toNat_le, UInt8.lt_iff_toNat_lt, ← UInt8.toNat_inj]

/-- A test on code points that does not tell those beyond ASCII apart, put to the bytes of a
text. -/
theorem all_bytes_iff {test : UInt8 → Bool} {allowed : Nat → Prop}
    (same : ∀ b, test b = true ↔ allowed b.toNat)
    (alike : (∀ n, 0x80 ≤ n → allowed n) ∨ ∀ n, 0x80 ≤ n → ¬ allowed n) (s : String) :
    (Text.bytes s).all test = true ↔ ∀ ch ∈ s.toList, allowed ch.toNat := by
  rw [Text.bytes, Text.encode, List.all_flatMap, List.all_eq_true]
  simp only [Text.all_encodeChar_iff same alike]

theorem all_bytes_isTextByte (s : String) :
    (Text.bytes s).all isTextByte = true ↔ ∀ ch ∈ s.toList, IsReadable ch := by
  have unread (n : Nat) (beyond : 0x80 ≤ n) : ¬ ((0x20 ≤ n ∧ n < 0x7F) ∨ n = 0x09) := by omega
  exact all_bytes_iff isTextByte_iff (.inr unread) s

theorem encode_map_ofUInt8 {value : List UInt8} (readable : value.all isTextByte = true) :
    Text.encode (value.map Char.ofUInt8) = value := by
  induction value with
  | nil => rfl
  | cons b rest ih =>
      obtain ⟨first, later⟩ := Bool.and_eq_true_iff.mp readable
      have ascii : b < 0x80 := by
        rw [isTextByte_iff] at first
        exact UInt8.lt_iff_toNat_lt.mpr (by simp only [UInt8.toNat_ofNat]; omega)
      rw [List.map_cons, Text.encode_cons, Text.encodeChar_ascii ascii, ih later]
      rfl

theorem valueText?_eq_some {value : List UInt8} {s : String} :
    valueText? value = some s ↔ value = Text.bytes s ∧ ∀ ch ∈ s.toList, IsReadable ch := by
  rw [← all_bytes_isTextByte, valueText?]
  constructor
  · intro read
    split at read
    · rename_i readable
      have text : Text.bytes s = value := by
        rw [← Option.some.inj read, Text.bytes, String.toList_ofList, encode_map_ofUInt8 readable]
      exact ⟨text.symm, text ▸ readable⟩
    · exact absurd read (by simp)
  · rintro ⟨rfl, readable⟩
    have text : (Text.bytes s).map Char.ofUInt8 = s.toList :=
      Text.encode_injective (encode_map_ofUInt8 readable)
    rw [if_pos readable, text, String.ofList_toList]

namespace Admin

open Upgrade (Container)

variable {key key' : String} {headers : Headers} {request : Request} {c c' : Container}
  {h h' : Hub}

/-! ### The key -/

/-- The value of the authorization is the one that the key asks for, and the key is not empty. -/
def BringsKey (key : String) (headers : Headers) : Prop :=
  key ≠ "" ∧ headers.first? "authorization" = some (Text.bytes ("Bearer " ++ key))

instance (key : String) (headers : Headers) : Decidable (BringsKey key headers) :=
  inferInstanceAs (Decidable (_ ∧ _))

theorem forall_mem_bearer (allowed : Char → Prop) (scheme : ∀ ch ∈ "Bearer ".toList, allowed ch) :
    (∀ ch ∈ (bearer key).toList, allowed ch) ↔ ∀ ch ∈ key.toList, allowed ch := by
  rw [bearer, String.toList_append, List.forall_mem_append]
  exact and_iff_right scheme

/-- A key lets in whoever brings it, if it can be read back out of a header. -/
theorem isAuthorized_iff : isAuthorized key headers = true
    ↔ BringsKey key headers ∧ ∀ ch ∈ key.toList, IsReadable ch := by
  have reads : headers.text? "authorization" = some (bearer key)
      ↔ headers.first? "authorization" = some (Text.bytes ("Bearer " ++ key))
        ∧ ∀ ch ∈ key.toList, IsReadable ch := by
    simp only [Headers.text?, Option.bind_eq_some_iff, valueText?_eq_some,
      forall_mem_bearer IsReadable (by simp [IsReadable])]
    exact ⟨fun ⟨value, first, same, readable⟩ => ⟨same ▸ first, readable⟩,
      fun ⟨first, readable⟩ => ⟨_, first, rfl, readable⟩⟩
  rw [BringsKey, and_assoc, ← reads, isAuthorized]
  cases headers.text? "authorization" with
  | none => simp
  | some value => simp

theorem isAuthorized_of_not_bringsKey (without : ¬ BringsKey key headers) :
    isAuthorized key headers = false := by
  rw [← Bool.not_eq_true, isAuthorized_iff]
  exact fun authorized => without authorized.1

/-! ### Answers -/

def refusalLine (request : Request) : Entry :=
  .line ⟨.debug, "Rejected admin request", [("path", .text (String.ofList request.target.path))]⟩

/-- The refusal as it is sent: with the methods of a route that does not have the one asked for. -/
def refusal (request : Request) : Response :=
  match Route.ofPath? request.target.path with
  | none => { status := 401 }
  | some route =>
    if route.allows request.method then { status := 401 }
    else ({ status := 401 } : Response).replaceField (Response.field "allow" route.allowed)

theorem status_refusal (request : Request) : (refusal request).status = 401 := by
  rw [refusal]
  cases Route.ofPath? request.target.path with
  | none => rfl
  | some route =>
      dsimp only
      split
      · rfl
      · rfl

theorem answer_of_unauthorized (unauthorized : isAuthorized key request.headers = false) :
    answer c h key request
      = ({ h with journal := h.journal ++ [refusalLine request] }, refusal request) := by
  rw [answer, refusal, unauthorized]
  cases Route.ofPath? request.target.path with
  | none => rfl
  | some route =>
      by_cases allowed : route.allows request.method = true
      · simp only [allowed]
        rfl
      · simp only [allowed]
        rfl

/-- Only those who are not let in are answered so. -/
theorem status_answer : (answer c h key request).2.status = 401
    ↔ isAuthorized key request.headers = false := by
  cases authorized : isAuthorized key request.headers with
  | false => simp [answer_of_unauthorized authorized, status_refusal]
  | true =>
      have served (route : Route) : (serve c h route).2.status ≠ 401 := by
        cases route with
        | close id =>
            rw [serve, close]
            split
            · simp [Response.plain]
            · split
              · simp
              · split <;> simp
        | status | sessions | mappings => simp [serve, Response.ofDocument]
      rw [answer, authorized]
      cases Route.ofPath? request.target.path with
      | none => simp
      | some route =>
          by_cases allowed : route.allows request.method = true
          · simp [allowed, served route]
          · simp [allowed, Response.replaceField]

/-- Whatever a request asks for: if it brings neither key, two servers refuse it in the same words,
and on both of them nothing but the line in the journal tells of it. -/
theorem answer_alike_without_key (without : ¬ BringsKey key request.headers)
    (without' : ¬ BringsKey key' request.headers) (c c' : Container) (h h' : Hub) :
    (answer c h key request).2 = (answer c' h' key' request).2
      ∧ (answer c h key request).2.status = 401
      ∧ (answer c h key request).1 = { h with journal := h.journal ++ [refusalLine request] }
      ∧ (answer c' h' key' request).1
        = { h' with journal := h'.journal ++ [refusalLine request] } := by
  have refused := answer_of_unauthorized (c := c) (h := h)
    (isAuthorized_of_not_bringsKey without)
  have refused' := answer_of_unauthorized (c := c') (h := h')
    (isAuthorized_of_not_bringsKey without')
  rw [refused, refused']
  exact ⟨rfl, status_refusal request, rfl, rfl⟩

/-- The beginning of the key closes no session. -/
theorem answer_alike_without_key_for_beginning :
    (let matched : Path.Match :=
        { spec := .exact "/a".toList, path := "/a".toList, covered := "/a".toList }
      let made : Hub := (({} : Hub).create matched {} none .echo).1
      let h : Hub := { made with registry := { live := [0] } }
      let request : Request :=
        { method := "POST", target := ⟨"/admin/sessions/1/close".toList, none⟩
          headers := ⟨[Response.field "authorization" "Bearer secr"]⟩ }
      ¬ BringsKey "secret" request.headers
        ∧ (answer {} h "secret" request).2 = (answer {} {} "secret" request).2
        ∧ (answer {} h "secret" request).2.status = 401
        ∧ (answer {} h "secret" request).1.registry.live = [0]) := by
  intro matched made h request
  have without : ¬ BringsKey "secret" request.headers := by decide +kernel
  obtain ⟨alike, status, left, -⟩ := answer_alike_without_key without without {} {} h {}
  exact ⟨without, alike, status, by rw [left]⟩

end Admin
end Gateway.Http
