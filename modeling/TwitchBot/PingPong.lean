import TwitchBot.SessionProtocol
import TwitchBot.SpokenLines

namespace TwitchBot

open MessageSyntax

/-- Parameters are made of bytes of the line. -/
theorem Params.bytes_mem {text : Bytes} {middles trailing : List Bytes} (params : Params text middles trailing) :
    ∀ parameter ∈ middles ++ trailing, ∀ c ∈ parameter, c ∈ text := by
  induction params with
  | blank => simp
  | trailing n text =>
    intro parameter member c inside
    cases List.mem_singleton.mp (by simpa using member)
    simp [inside]
  | last n form =>
    intro parameter member c inside
    cases List.mem_singleton.mp (by simpa using member)
    simp [inside]
  | @middle n word rest middles trailing form params ih =>
    intro parameter member c inside
    simp only [List.cons_append, List.mem_cons] at member
    rcases member with rfl | member
    · simp [inside]
    · have found := ih parameter member c inside
      simp [found]

theorem parameter_bytes_mem {line parameter : Bytes} {message : IrcMessage}
    (parsed : parseIrcMessage line = .ok message) (member : parameter ∈ message.parameters) {c : UInt8}
    (inside : c ∈ parameter) : c ∈ line := by
  obtain ⟨_, _, _, _, m, rfl, rfl⟩ := parseIrcMessage_sound parsed
  have form := m.params_form
  cases atText : m.paramsText with
  | none =>
    rw [atText] at form
    simp [MessageSyntax.message, form.1, form.2] at member
  | some text =>
    rw [atText] at form
    have found := form.bytes_mem parameter member c inside
    simp [MessageSyntax.text, atText, paramsPart, found]

theorem parameter_unbroken {line parameter : Bytes} {message : IrcMessage}
    (parsed : parseIrcMessage line = .ok message) (member : parameter ∈ message.parameters) :
    cr ∉ parameter ∧ lf ∉ parameter := by
  obtain ⟨_, _, noCr, noLf, _⟩ := parseIrcMessage_sound parsed
  exact ⟨fun inside => noCr (parameter_bytes_mem parsed member inside),
    fun inside => noLf (parameter_bytes_mem parsed member inside)⟩

theorem handle_ping {protocol : SessionProtocol} {message : IrcMessage} {payload : Bytes} {rest : List Bytes}
    (ping : message.command = bytes "PING") (parameters : message.parameters = payload :: rest) :
    protocol.handle message =
      ((sendAction .system [] (bytes "PONG :" ++ payload)).map ([·]), protocol) := by
  rw [SessionProtocol.handle, if_pos ping]
  simp only [parameters]

theorem handle_ping_short {protocol : SessionProtocol} {message : IrcMessage} {payload : Bytes}
    {rest : List Bytes} (ping : message.command = bytes "PING")
    (parameters : message.parameters = payload :: rest) (unbroken : cr ∉ payload ∧ lf ∉ payload)
    (short : payload.length ≤ 504) : ∃ wire,
      protocol.handle message = (.ok [⟨.send, wire ++ crlf, .system, []⟩], protocol) ∧
        cr ∉ wire ∧ lf ∉ wire ∧ parseIrcMessage wire = .ok ⟨∅, [], bytes "PONG", [payload]⟩ := by
  obtain ⟨encoded, wire, shape, read⟩ := speaks_pong short unbroken
  obtain ⟨_, _, noCr, noLf, _⟩ := parseIrcMessage_sound read
  refine ⟨wire, ?_, noCr, noLf, read⟩
  rw [handle_ping ping parameters, sendAction, encoded, shape]
  rfl

theorem handle_ping_long {protocol : SessionProtocol} {message : IrcMessage} {payload : Bytes}
    {rest : List Bytes} (ping : message.command = bytes "PING")
    (parameters : message.parameters = payload :: rest) (unbroken : cr ∉ payload ∧ lf ∉ payload)
    (long : 504 < payload.length) :
    protocol.handle message = (.error "Outgoing IRC line exceeds 510 bytes", protocol) := by
  have length : (bytes "PONG :").length = 6 := by decide
  have clean : containsLineBreak (bytes "PONG :" ++ payload) = false := by
    rw [containsLineBreak_append, containsLineBreak_eq_false.mpr unbroken]
    decide
  have oversized : (bytes "PONG :" ++ payload).length > maxOutgoingPayloadBytes := by
    simp only [List.length_append, length, maxOutgoingPayloadBytes]
    omega
  have nonempty : (bytes "PONG :" ++ payload).isEmpty = false := by simp [bytes]
  rw [handle_ping ping parameters, sendAction, encodeIrcLine, nonempty, clean, if_neg (by simp),
    if_pos oversized]
  rfl

/-- A `PING` that arrives with a parameter is answered by one `PONG` line that
carries exactly that parameter, as far as the outgoing limit lets it; beyond
the limit the call throws. The protocol is unchanged either way. -/
theorem ping_answered {line payload : Bytes} {message : IrcMessage} (protocol : SessionProtocol)
    (parsed : parseIrcMessage line = .ok message) (ping : message.command = bytes "PING")
    (first : message.parameters.head? = some payload) :
    (payload.length ≤ 504 → ∃ wire,
        protocol.handle message = (.ok [⟨.send, wire ++ crlf, .system, []⟩], protocol) ∧
        cr ∉ wire ∧ lf ∉ wire ∧ parseIrcMessage wire = .ok ⟨∅, [], bytes "PONG", [payload]⟩) ∧
      (504 < payload.length →
        protocol.handle message = (.error "Outgoing IRC line exceeds 510 bytes", protocol)) := by
  obtain ⟨rest, parameters⟩ : ∃ rest, message.parameters = payload :: rest := by
    cases all : message.parameters with
    | nil => simp [all] at first
    | cons head rest =>
      cases Option.some.inj (by simpa [all] using first : some head = some payload)
      exact ⟨rest, rfl⟩
  have member : payload ∈ message.parameters := by simp [parameters]
  have unbroken := parameter_unbroken parsed member
  exact ⟨handle_ping_short ping parameters unbroken, handle_ping_long ping parameters unbroken⟩

theorem ping_answered_payload :
    ((bytes "a b").length ≤ 504 → ∃ wire,
        (SessionProtocol.mk validConfig .disconnected false ∅).handle ⟨∅, [], bytes "PING", [bytes "a b"]⟩ =
          (.ok [⟨.send, wire ++ crlf, .system, []⟩], SessionProtocol.mk validConfig .disconnected false ∅) ∧
        cr ∉ wire ∧ lf ∉ wire ∧ parseIrcMessage wire = .ok ⟨∅, [], bytes "PONG", [bytes "a b"]⟩) ∧
      (504 < (bytes "a b").length →
        (SessionProtocol.mk validConfig .disconnected false ∅).handle ⟨∅, [], bytes "PING", [bytes "a b"]⟩ =
          (.error "Outgoing IRC line exceeds 510 bytes", SessionProtocol.mk validConfig .disconnected false ∅)) := by
  have parsed : parseIrcMessage (bytes "PING :a b") = .ok ⟨∅, [], bytes "PING", [bytes "a b"]⟩ := by
    decide +kernel
  exact ping_answered _ parsed rfl rfl

theorem parse_ping {payload : Bytes} (short : payload.length ≤ 8000) (unbroken : cr ∉ payload ∧ lf ∉ payload) :
    parseIrcMessage (bytes "PING" ++ space :: colon :: payload) = .ok ⟨∅, [], bytes "PING", [payload]⟩ := by
  have length : (bytes "PING").length = 4 := by decide
  have upper : (bytes "PING").map toUpper = bytes "PING" := by decide
  have parsed := parse_plain (bytes "PING") (by decide) (List.all_eq_true.mp (by decide)) (trailing_params payload)
    (by simp) (by simp only [List.length_append, List.length_cons, length, maxIrcLineBytes]; omega)
    (free_of_trailing (by decide) (by decide) (by decide) unbroken.1)
    (free_of_trailing (by decide) (by decide) (by decide) unbroken.2)
  rwa [upper] at parsed

/-- A `PING` with a payload of 505 bytes is accepted by the parser, and the
answer to it throws in every state. -/
theorem ping_oversized :
    parseIrcMessage (bytes "PING" ++ space :: colon :: List.replicate 505 120) =
        .ok ⟨∅, [], bytes "PING", [List.replicate 505 120]⟩ ∧
      ∀ protocol : SessionProtocol, protocol.handle ⟨∅, [], bytes "PING", [List.replicate 505 120]⟩ =
        (.error "Outgoing IRC line exceeds 510 bytes", protocol) := by
  have unbroken (n : Nat) : cr ∉ List.replicate n (120 : UInt8) ∧ lf ∉ List.replicate n (120 : UInt8) := by
    simp [cr, lf]
  have length : (List.replicate 505 (120 : UInt8)).length = 505 := List.length_replicate
  exact ⟨parse_ping (by omega) (unbroken 505),
    fun protocol => handle_ping_long rfl rfl (unbroken 505) (by omega)⟩

end TwitchBot
