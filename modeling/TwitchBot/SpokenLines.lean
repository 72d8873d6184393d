import TwitchBot.ConfigValid
import TwitchBot.ParserExact

namespace TwitchBot

open MessageSyntax

/-- A produced line that the parser reads back as a plain message. -/
def Speaks (data : Bytes) (command : String) (parameters : List Bytes) : Prop :=
  ∃ wire, data = wire ++ crlf ∧ parseIrcMessage wire = .ok ⟨∅, [], bytes command, parameters⟩

/-- A line of a command and parameters, without tags and prefix. -/
theorem parse_plain (command : Bytes) {text : Bytes} {middles trailing : List Bytes} (nonempty : command ≠ [])
    (alnum : ∀ c ∈ command, isAlnum c = true) (params : Params text middles trailing)
    (bound : middles.length ≤ 32) (short : (command ++ space :: text).length ≤ maxIrcLineBytes)
    (noCr : cr ∉ command ++ space :: text) (noLf : lf ∉ command ++ space :: text) :
    parseIrcMessage (command ++ space :: text) =
      .ok ⟨∅, [], command.map toUpper, middles ++ trailing⟩ :=
  parseIrcMessage_text ⟨[], 0, none, 0, command, some text, middles, trailing, by simp, nonempty, alnum,
    params, bound⟩ short noCr noLf

/-- Upper-case commands with parameters are encoded and read back unchanged. -/
theorem speaks_plain (command : String) {text : Bytes} {middles trailing : List Bytes}
    (word : bytes command ≠ [] ∧ (bytes command).all isAlnum = true ∧
      (bytes command).map toUpper = bytes command)
    (params : Params text middles trailing) (bound : middles.length ≤ 32)
    (short : (bytes command).length + text.length + 1 ≤ maxOutgoingPayloadBytes)
    (unbroken : cr ∉ text ∧ lf ∉ text) :
    encodeIrcLine (bytes command ++ space :: text) = .ok (bytes command ++ space :: text ++ crlf) ∧
      Speaks (bytes command ++ space :: text ++ crlf) command (middles ++ trailing) := by
  obtain ⟨nonempty, allAlnum, upper⟩ := word
  have alnum : ∀ c ∈ bytes command, isAlnum c = true := List.all_eq_true.mp allAlnum
  have small : (bytes command ++ space :: text).length ≤ maxOutgoingPayloadBytes := by
    simpa [Nat.add_assoc] using short
  have noCr : cr ∉ bytes command ++ space :: text := by
    have free : cr ∉ bytes command := fun member => absurd (alnum cr member) (by decide)
    simpa [free, cr, space] using unbroken.1
  have noLf : lf ∉ bytes command ++ space :: text := by
    have free : lf ∉ bytes command := fun member => absurd (alnum lf member) (by decide)
    simpa [free, lf, space] using unbroken.2
  refine ⟨encodeIrcLine_eq_ok (by simp) noCr noLf small, _, rfl, ?_⟩
  rw [parse_plain _ nonempty alnum params bound (small.trans (by decide)) noCr noLf, upper]

/-- What can stand behind a command without a colon. -/
theorem middle_of_bytes {word : Bytes} (nonempty : word ≠ []) (plain : ∀ c ∈ word, c ≠ space ∧ c ≠ colon) :
    Middle word := by
  refine ⟨nonempty, fun member => (plain space member).1 rfl, ?_⟩
  obtain ⟨c, rest, rfl⟩ := List.exists_cons_of_ne_nil nonempty
  simpa using (plain c (by simp)).2

theorem isLoginByte_plain (c : UInt8) (login : isLoginByte c = true) :
    c ≠ space ∧ c ≠ colon ∧ c ≠ cr ∧ c ≠ lf := by
  revert login
  exact forall_byte (p := fun c => isLoginByte c = true → c ≠ space ∧ c ≠ colon ∧ c ≠ cr ∧ c ≠ lf)
    (by decide +kernel) c

theorem isTokenByte_plain (c : UInt8) (token : isTokenByte c = true) : c ≠ space ∧ c ≠ cr ∧ c ≠ lf := by
  revert token
  exact forall_byte (p := fun c => isTokenByte c = true → c ≠ space ∧ c ≠ cr ∧ c ≠ lf)
    (by decide +kernel) c

theorem LoginName.unbroken {name : Bytes} (login : LoginName name) : cr ∉ name ∧ lf ∉ name :=
  ⟨fun member => (isLoginByte_plain cr (login.2.2 cr member)).2.2.1 rfl,
    fun member => (isLoginByte_plain lf (login.2.2 lf member)).2.2.2 rfl⟩

theorem LoginName.middle {name : Bytes} (login : LoginName name) : Middle name :=
  middle_of_bytes (List.length_pos_iff.mp login.1)
    (fun c member => ⟨(isLoginByte_plain c (login.2.2 c member)).1,
      (isLoginByte_plain c (login.2.2 c member)).2.1⟩)

theorem middle_cons {c : UInt8} {word : Bytes} (notSpace : c ≠ space) (notColon : c ≠ colon)
    (free : space ∉ word) : Middle (c :: word) :=
  ⟨by simp, List.not_mem_cons_of_ne_of_not_mem notSpace.symm free, by simpa using notColon⟩

theorem middle_params {word : Bytes} (middle : Middle word) : Params word [word] [] := by
  simpa using Params.last 0 middle

theorem trailing_params (text : Bytes) : Params (colon :: text) [] [text] := by
  simpa using Params.trailing 0 text

theorem middle_trailing_params {word : Bytes} (middle : Middle word) (text : Bytes) :
    Params (word ++ space :: colon :: text) [word] [text] := by
  simpa using Params.middle 0 middle (trailing_params text)

theorem speaks_pass {token : Bytes} (short : token.length ≤ 499) (plain : ∀ c ∈ token, isTokenByte c = true) :
    encodeIrcLine (bytes "PASS " ++ (oauthPrefix ++ token)) =
        .ok (bytes "PASS " ++ (oauthPrefix ++ token) ++ crlf) ∧
      Speaks (bytes "PASS " ++ (oauthPrefix ++ token) ++ crlf) "PASS" [oauthPrefix ++ token] := by
  have length : (bytes "PASS").length = 4 ∧ oauthPrefix.length = 6 := by decide
  have noSpace : space ∉ token := fun member => (isTokenByte_plain space (plain space member)).1 rfl
  have noCr : cr ∉ token := fun member => (isTokenByte_plain cr (plain cr member)).2.1 rfl
  have noLf : lf ∉ token := fun member => (isTokenByte_plain lf (plain lf member)).2.2 rfl
  have word : Middle (oauthPrefix ++ token) := by
    refine ⟨by simp [oauthPrefix, bytes], ?_, by simp [oauthPrefix, bytes]; decide⟩
    simp only [List.mem_append, not_or]
    exact ⟨by decide, noSpace⟩
  refine speaks_plain "PASS" (by decide) (middle_params word) (by simp) ?_ ?_
  · simp only [List.length_append, length, maxOutgoingPayloadBytes]
    omega
  · simp only [List.mem_append, not_or]
    exact ⟨⟨by decide, noCr⟩, by decide, noLf⟩

theorem speaks_nick {name : Bytes} (login : LoginName name) :
    encodeIrcLine (bytes "NICK " ++ name) = .ok (bytes "NICK " ++ name ++ crlf) ∧
      Speaks (bytes "NICK " ++ name ++ crlf) "NICK" [name] := by
  have length : (bytes "NICK").length = 4 := by decide
  have short := login.2.1
  refine speaks_plain "NICK" (by decide) (middle_params login.middle) (by simp) ?_ login.unbroken
  simp only [length, maxOutgoingPayloadBytes]
  omega

def capabilityList : Bytes := bytes "twitch.tv/membership twitch.tv/tags twitch.tv/commands"

theorem middle_request : Middle (bytes "REQ") := by
  unfold Middle
  decide

theorem speaks_cap :
    encodeIrcLine (bytes "CAP REQ :twitch.tv/membership twitch.tv/tags twitch.tv/commands") =
        .ok (bytes "CAP REQ :twitch.tv/membership twitch.tv/tags twitch.tv/commands" ++ crlf) ∧
      Speaks (bytes "CAP REQ :twitch.tv/membership twitch.tv/tags twitch.tv/commands" ++ crlf) "CAP"
        [bytes "REQ", capabilityList] :=
  speaks_plain "CAP" (by decide)
    (middle_trailing_params middle_request capabilityList)
    (by simp) (by decide) (by decide)

/-- A channel name behind its `#`. -/
theorem LoginName.channel {name : Bytes} (login : LoginName name) :
    Middle (hashSign :: name) ∧ cr ∉ hashSign :: name ∧ lf ∉ hashSign :: name := by
  obtain ⟨noCr, noLf⟩ := login.unbroken
  exact ⟨middle_cons (by decide) (by decide) login.middle.2.1,
    List.not_mem_cons_of_ne_of_not_mem (by decide) noCr,
    List.not_mem_cons_of_ne_of_not_mem (by decide) noLf⟩

theorem speaks_join {name : Bytes} (login : LoginName name) :
    encodeIrcLine (bytes "JOIN #" ++ name) = .ok (bytes "JOIN #" ++ name ++ crlf) ∧
      Speaks (bytes "JOIN #" ++ name ++ crlf) "JOIN" [hashSign :: name] := by
  obtain ⟨middle, unbroken⟩ := login.channel
  have length : (bytes "JOIN").length = 4 := by decide
  have short := login.2.1
  refine speaks_plain "JOIN" (by decide) (middle_params middle) (by simp) ?_ unbroken
  simp only [List.length_cons, length, maxOutgoingPayloadBytes]
  omega

theorem speaks_pong {payload : Bytes} (short : payload.length ≤ 504) (unbroken : cr ∉ payload ∧ lf ∉ payload) :
    encodeIrcLine (bytes "PONG :" ++ payload) = .ok (bytes "PONG :" ++ payload ++ crlf) ∧
      Speaks (bytes "PONG :" ++ payload ++ crlf) "PONG" [payload] := by
  have length : (bytes "PONG").length = 4 := by decide
  refine speaks_plain "PONG" (by decide) (trailing_params payload) (by simp) ?_ ?_
  · simp only [List.length_cons, length, maxOutgoingPayloadBytes]
    omega
  · exact ⟨List.not_mem_cons_of_ne_of_not_mem (by decide) unbroken.1,
      List.not_mem_cons_of_ne_of_not_mem (by decide) unbroken.2⟩

theorem free_of_trailing {c : UInt8} {word text : Bytes} (notSpace : c ≠ space) (notColon : c ≠ colon)
    (wordFree : c ∉ word) (textFree : c ∉ text) : c ∉ word ++ space :: colon :: text := by
  simp only [List.mem_append, List.mem_cons, not_or]
  exact ⟨wordFree, notSpace, notColon, textFree⟩

theorem makePrivmsg_eq {channel text : Bytes} (someChannel : channel ≠ []) (someText : text ≠ [])
    (channelUnbroken : containsLineBreak channel = false) (textUnbroken : containsLineBreak text = false)
    (notHash : channel.head? ≠ some hashSign) :
    makePrivmsg channel text =
      encodeIrcLine (bytes "PRIVMSG" ++ space :: (hashSign :: channel ++ space :: colon :: text)) := by
  have channelEmpty : channel.isEmpty = false := by simpa using someChannel
  have textEmpty : text.isEmpty = false := by simpa using someText
  have shape : bytes "PRIVMSG " ++ (hashSign :: channel) ++ bytes " :" ++ text =
      bytes "PRIVMSG" ++ space :: (hashSign :: channel ++ space :: colon :: text) := by
    simp only [List.append_assoc]
    rfl
  simp only [makePrivmsg, channelEmpty, textEmpty, channelUnbroken, textUnbroken, notHash, Bool.or_false,
    Bool.false_eq_true, if_false, shape]

/-- A valid channel and a valid text fit into one `PRIVMSG`. -/
theorem speaks_privmsg {channel text : Bytes} (login : LoginName channel) (speakable : SpeakableText text) :
    ∃ data, makePrivmsg channel text = .ok data ∧ Speaks data "PRIVMSG" [hashSign :: channel, text] := by
  obtain ⟨nonempty, short, noCr, noLf⟩ := speakable
  obtain ⟨middle, channelCr, channelLf⟩ := login.channel
  have unbrokenChannel := containsLineBreak_eq_false.mpr login.unbroken
  have unbrokenText := containsLineBreak_eq_false.mpr ⟨noCr, noLf⟩
  have someChannel : channel ≠ [] := List.length_pos_iff.mp login.1
  have notHash : channel.head? ≠ some hashSign := by
    intro head
    have member : hashSign ∈ channel := List.mem_of_head? head
    exact absurd (login.2.2 hashSign member) (by decide)
  have length : (bytes "PRIVMSG").length = 7 := by decide
  have bound := login.2.1
  have spoken := speaks_plain "PRIVMSG" (by decide) (middle_trailing_params middle text) (by simp)
    (by simp only [List.length_append, List.length_cons, length, maxOutgoingPayloadBytes]; omega)
    ⟨free_of_trailing (by decide) (by decide) channelCr noCr,
      free_of_trailing (by decide) (by decide) channelLf noLf⟩
  refine ⟨_, ?_, spoken.2⟩
  rw [makePrivmsg_eq someChannel nonempty unbrokenChannel unbrokenText notHash, spoken.1]

end TwitchBot
