import Gateway.Program.Client
import Gateway.Proofs.Config.Rules
import Gateway.Proofs.Http.Authorization

/-!
A key on its way through three checks. The configuration may have any key that is not blank, the
client sends any without control characters, and the admin API reads ASCII only. So a key with other
characters is accepted and sent, and lets nobody in. Main statement: `Admin.keys_of_ascii_let_in`.
-/
namespace Gateway.Http

/-- A character that may stand in a header value: any but the control characters, the tab
excepted. -/
def IsSendable (ch : Char) : Prop := (0x20 ≤ ch.toNat ∧ ch.toNat ≠ 0x7F) ∨ ch.toNat = 0x09

instance (ch : Char) : Decidable (IsSendable ch) := inferInstanceAs (Decidable (_ ∨ _))

theorem isReadable_iff {ch : Char} : IsReadable ch ↔ IsSendable ch ∧ ch.toNat < 0x80 := by
  rw [IsReadable, IsSendable]
  omega

example : IsSendable 'é' ∧ ¬ IsReadable 'é' := by decide

theorem isValueByte_iff (b : UInt8) :
    isValueByte b = true ↔ (0x20 ≤ b.toNat ∧ b.toNat ≠ 0x7F) ∨ b.toNat = 0x09 := by
  simp [isValueByte, UInt8.le_iff_toNat_le, ← UInt8.toNat_inj]

theorem all_bytes_isValueByte (s : String) :
    (Text.bytes s).all isValueByte = true ↔ ∀ ch ∈ s.toList, IsSendable ch := by
  have sent (n : Nat) (beyond : 0x80 ≤ n) : (0x20 ≤ n ∧ n ≠ 0x7F) ∨ n = 0x09 := by omega
  exact all_bytes_iff isValueByte_iff (.inl sent) s

theorem fieldValue?_bytes {s : String} {value : List UInt8} :
    fieldValue? (Text.bytes s) = some value
      ↔ value = Text.bytes s ∧ ∀ ch ∈ s.toList, IsSendable ch := by
  rw [fieldValue?, Option.ite_none_right_eq_some, Option.some_inj, all_bytes_isValueByte, and_comm,
    eq_comm]

namespace Admin

open CommandLine (Order Values)
open Config (ServerConfig)
open Program
open Upgrade (Container)

variable {key : String} {environment : Values} {arguments : List String} {order : Order}
  {config : ServerConfig} {c : Container} {h : Hub} {request : Request}

theorem verb_of_parse {g : CommandLine.Grammar} (verbs : g.verbs.isEmpty = false)
    (parsed : g.parse environment arguments = .ok order) : ∃ verb, order.verb = some verb := by
  rw [CommandLine.Grammar.parse] at parsed
  cases read : CommandLine.readArguments g [] none arguments with
  | error stop =>
      rw [read] at parsed
      exact absurd parsed (by simp [bind, Except.bind])
  | ok first =>
      cases filled : CommandLine.fill environment g.parameters first.values with
      | error stop => simp [bind, Except.bind, read, filled] at parsed
      | ok values =>
          simp only [bind, Except.bind, read, filled, verbs, Bool.not_false,
            Bool.and_true] at parsed
          cases told : first.verb with
          | none => simp [told] at parsed
          | some verb =>
              rw [told, Option.isNone_some, if_neg Bool.false_ne_true] at parsed
              exact ⟨verb, congrArg Order.verb (Except.ok.inj parsed).symm⟩

/-- The client sends the key as it is, unless there is a control character in it. -/
theorem plan_cases (parsed : Client.grammar.parse environment arguments = .ok order)
    (given : order.value? "key" = some key) :
    ((∀ ch ∈ key.toList, IsSendable ch) ∧ ∃ r, Client.plan environment arguments = .send r
        ∧ r.authorization.value = Text.bytes (bearer key))
      ∨ (¬ ∀ ch ∈ key.toList, IsSendable ch) ∧ Client.plan environment arguments = .badKey := by
  obtain ⟨verb, told⟩ := verb_of_parse rfl parsed
  have planned : Client.plan environment arguments
      = match fieldValue? (Text.bytes (bearer key)) with
        | none => .badKey
        | some value => .send {
            method := (Client.target verb.1.name verb.2).1
            url := Client.base ((order.value? "url").getD "")
              ++ (Client.target verb.1.name verb.2).2
            authorization := ⟨"authorization", value⟩ } := by
    simp only [Client.plan, parsed, given, Option.getD_some, told]
    rw [bearer]
    cases fieldValue? (Text.bytes ("Bearer " ++ key)) with
    | none => rfl
    | some value => rfl
  rw [planned, ← forall_mem_bearer IsSendable (by simp [IsSendable])]
  by_cases sendable : ∀ ch ∈ (bearer key).toList, IsSendable ch
  · rw [fieldValue?_bytes.mpr ⟨rfl, sendable⟩]
    exact .inl ⟨sendable, _, rfl, rfl⟩
  · have unsent : fieldValue? (Text.bytes (bearer key)) = none :=
      Option.eq_none_iff_forall_not_mem.mpr fun value sent =>
        sendable (fieldValue?_bytes.mp sent).2
    rw [unsent]
    exact .inr ⟨sendable, rfl⟩

theorem key_ne_empty (enabled : config.admin.enabled = true) (valid : config.errors = []) :
    config.admin.apiKey ≠ "" := by
  intro empty
  refine ServerConfig.errors_eq_nil.mp valid _ _ (.adminKey enabled ?_)
  rw [empty]
  exact fun ch among => absurd among (by simp)

/-- With a configuration that the check accepts, a client that is given its key sends it unless
there is a control character in it, and a request that arrives with what it sends is let in just
when the key is all ASCII. A key with any other character in it lets nobody in, whatever they bring.
Nothing is said of what becomes of the value on its way: a blank at the end of a key is dropped
where a message is read off the wire, and such a key arrives without it. -/
theorem keys_of_ascii_let_in (enabled : config.admin.enabled = true) (valid : config.errors = [])
    (parsed : Client.grammar.parse environment arguments = .ok order)
    (given : order.value? "key" = some config.admin.apiKey) :
    ((∃ r, Client.plan environment arguments = .send r)
        ↔ ∀ ch ∈ config.admin.apiKey.toList, IsSendable ch)
      ∧ (∀ r, Client.plan environment arguments = .send r → ∀ c h (request : Request),
        request.headers.first? "authorization" = some r.authorization.value →
          ((answer c h config.admin.apiKey request).2.status ≠ 401
            ↔ ∀ ch ∈ config.admin.apiKey.toList, ch.toNat < 0x80))
      ∧ ((∃ ch ∈ config.admin.apiKey.toList, 0x80 ≤ ch.toNat) → ∀ c h request,
        (answer c h config.admin.apiKey request).2.status = 401) := by
  have lets_in {c : Container} {h : Hub} {request : Request} :
      (answer c h config.admin.apiKey request).2.status ≠ 401
        ↔ BringsKey config.admin.apiKey request.headers
          ∧ ∀ ch ∈ config.admin.apiKey.toList, IsReadable ch := by
    rw [Ne, status_answer, Bool.not_eq_false, isAuthorized_iff]
  refine ⟨?_, ?_, ?_⟩
  · obtain ⟨sendable, r, sent, -⟩ | ⟨unsendable, bad⟩ := plan_cases parsed given
    · exact ⟨fun _ => sendable, fun _ => ⟨r, sent⟩⟩
    · rw [bad]
      exact ⟨fun ⟨r, sent⟩ => absurd sent (by simp), fun sendable => absurd sendable unsendable⟩
  · intro r sent c h request carried
    obtain ⟨sendable, r', sent', value⟩ | ⟨-, bad⟩ := plan_cases parsed given
    · rw [sent'] at sent
      obtain rfl := Client.Plan.send.inj sent
      rw [value, bearer] at carried
      have brings : BringsKey config.admin.apiKey request.headers :=
        ⟨key_ne_empty enabled valid, carried⟩
      rw [lets_in, and_iff_right brings]
      exact ⟨fun readable ch among => (isReadable_iff.mp (readable ch among)).2,
        fun ascii ch among => isReadable_iff.mpr ⟨sendable ch among, ascii ch among⟩⟩
    · rw [bad] at sent
      exact absurd sent (by simp)
  · rintro ⟨ch, among, beyond⟩ c h request
    by_contra let_in
    obtain ⟨-, readable⟩ := lets_in.mp let_in
    exact absurd (isReadable_iff.mp (readable ch among)).2 (Nat.not_lt.mpr beyond)

/-- A key of two words lets in the client that is given it. -/
theorem keys_of_ascii_let_in_with_two_words :
    let config : ServerConfig := { admin := { enabled := true, apiKey := "two words" } }
    config.errors = [] ∧ ∃ r, Client.plan [] ["--key", "two words", "status"] = .send r
      ∧ (answer {} {} config.admin.apiKey
        { target := ⟨"/admin/status".toList, none⟩
          headers := ⟨[r.authorization]⟩ }).2.status ≠ 401 := by
  intro config
  have valid : config.errors = [] := by decide +kernel
  obtain ⟨order, parsed, given⟩ : ∃ order, Client.grammar.parse [] ["--key", "two words", "status"]
      = .ok order ∧ order.value? "key" = some config.admin.apiKey := ⟨_, rfl, rfl⟩
  obtain ⟨sends, lets_in, -⟩ := keys_of_ascii_let_in rfl valid parsed given
  obtain ⟨r, sent⟩ := sends.mpr (by simp [config, IsSendable])
  have carried : Headers.first? ⟨[r.authorization]⟩ "authorization"
      = some r.authorization.value := by
    obtain rfl := Client.Plan.send.inj sent
    decide +kernel
  exact ⟨valid, r, sent, (lets_in r sent _ _ _ carried).mpr (by simp [config])⟩

/-- A key that the check accepts and the client sends, and that lets nobody in. -/
theorem accented_key_lets_nobody_in :
    let config : ServerConfig := { admin := { enabled := true, apiKey := "é" } }
    config.admin.enabled = true ∧ config.errors = []
      ∧ ∃ r, Client.plan [] ["--key", "é", "status"] = .send r
        ∧ (answer {} {} config.admin.apiKey
          { target := ⟨"/admin/status".toList, none⟩
            headers := ⟨[r.authorization]⟩ }).2.status = 401 := by
  intro config
  refine ⟨rfl, by decide +kernel, _, rfl, ?_⟩
  decide +kernel

end Admin
end Gateway.Http
