import ThreadLink.Gateway.Validation

/-!
# What the browser sends

The types of `frontend/types/protocol.ts` and those of the gateway's `clientProtocol.ts` are written
independently and must be kept in step. A message of the browser is an object, sent as the text that
`JSON.stringify` makes of it; the gateway parses the text and validates the value.

## The model

* `Protocol.ClientMessage` has the browser's own type, and `toJson` the object of a message.
* `JSON.stringify` and `JSON.parse` are parameters.

## What is proved

* `describes_received`, `withinLimits_received` — a message of the browser has the fields of a
  message of the gateway.
* `protocol_agrees` — **what is accepted is within the limits, is accepted again as it is and does
  not depend on other fields, and what the browser sends within the limits is accepted unchanged**.
* `exists_message` — what is accepted could have been sent by the browser.
-/

namespace ThreadLink.Frontend

open Text Gateway

namespace Protocol

/-- `MessageTarget` of the browser. -/
inductive MessageTarget where
  /-- Everyone. -/
  | everyone
  /-- One user. -/
  | direct (peerId : Units)
  /-- A group. -/
  | group (groupId : Units)
  deriving DecidableEq, Repr

/-- A presence that can be set: `"online" | "away"`. -/
inductive SettablePresence where
  /-- `"online"`. -/
  | online
  /-- `"away"`. -/
  | away
  deriving DecidableEq, Repr

/-- `ClientMessage` of the browser. -/
inductive ClientMessage where
  /-- `register`. -/
  | register (username password : Units)
  /-- `login`. -/
  | login (username password : Units)
  /-- `logout`. -/
  | logout
  /-- `setNickname`. -/
  | setNickname (nickname : Units)
  /-- `sendMessage`. -/
  | sendMessage (target : MessageTarget) (text : Units)
  /-- `createGroup`. -/
  | createGroup (name : Units) (memberIds : List Units)
  /-- `setPresence`. -/
  | setPresence (presence : SettablePresence)
  /-- `requestState`. -/
  | requestState
  deriving DecidableEq, Repr

/-- The object of a target. -/
def MessageTarget.toJson : MessageTarget → Json
  | .everyone => .obj [(units "kind", .str (units "public"))]
  | .direct peerId => .obj [(units "kind", .str (units "direct")), (units "peerId", .str peerId)]
  | .group groupId => .obj [(units "kind", .str (units "group")), (units "groupId", .str groupId)]

/-- The string of a presence. -/
def SettablePresence.name : SettablePresence → Units
  | .online => units "online"
  | .away => units "away"

/-- The object of a message, as the methods of `ThreadLinkClient` make it. -/
def ClientMessage.toJson : ClientMessage → Json
  | .register username password =>
    .obj [(units "type", .str (units "register")), (units "username", .str username),
      (units "password", .str password)]
  | .login username password =>
    .obj [(units "type", .str (units "login")), (units "username", .str username),
      (units "password", .str password)]
  | .logout => .obj [(units "type", .str (units "logout"))]
  | .setNickname nickname =>
    .obj [(units "type", .str (units "setNickname")), (units "nickname", .str nickname)]
  | .sendMessage target text =>
    .obj [(units "type", .str (units "sendMessage")), (units "target", target.toJson),
      (units "text", .str text)]
  | .createGroup name memberIds =>
    .obj [(units "type", .str (units "createGroup")), (units "name", .str name),
      (units "memberIds", .arr (memberIds.map .str))]
  | .setPresence presence =>
    .obj [(units "type", .str (units "setPresence")), (units "presence", .str presence.name)]
  | .requestState => .obj [(units "type", .str (units "requestState"))]

/-- `encodeOutbound`. -/
def encodeOutbound (stringify : Json → Units) (message : ClientMessage) : Units :=
  stringify message.toJson

/-- The limits, for a message of the browser. -/
def ClientMessage.WithinLimits : ClientMessage → Prop
  | .register username password | .login username password =>
    Within maxUsernameLen username ∧ Within maxPasswordLen password
  | .setNickname nickname => Within maxNicknameLen nickname
  | .sendMessage target text =>
    Within maxTextLen text ∧ ∀ id, (target = .direct id ∨ target = .group id) → id ≠ []
  | .createGroup name memberIds =>
    Within maxGroupNameLen name ∧ memberIds ≠ [] ∧ memberIds.length ≤ maxGroupMembers ∧
      ∀ id ∈ memberIds, id ≠ []
  | .setPresence _ | .logout | .requestState => True

/-! ### The two types -/

/-- The target the gateway has. -/
def MessageTarget.received : MessageTarget → Gateway.MessageTarget
  | .everyone => .everyone
  | .direct peerId => .direct peerId
  | .group groupId => .group groupId

/-- The presence the gateway has. -/
def SettablePresence.received : SettablePresence → Presence
  | .online => .online
  | .away => .away

/-- The message the gateway has. -/
def ClientMessage.received : ClientMessage → Gateway.ClientMessage
  | .register username password => .register username password
  | .login username password => .login username password
  | .logout => .logout
  | .setNickname nickname => .setNickname nickname
  | .sendMessage target text => .sendMessage target.received text
  | .createGroup name memberIds => .createGroup name memberIds
  | .setPresence presence => .setPresence presence.received
  | .requestState => .requestState

variable {message : ClientMessage} {v v' : Json} {m : Gateway.ClientMessage}

/-- It is the same object. -/
theorem toJson_received (message : ClientMessage) : message.received.toJson = message.toJson := by
  cases message with
  | sendMessage target text => cases target <;> rfl
  | setPresence presence => cases presence <;> rfl
  | _ => rfl

/-- The limits are the same. -/
theorem withinLimits_received (h : message.WithinLimits) : message.received.WithinLimits := by
  cases message with
  | register username password => exact h
  | login username password => exact h
  | logout => trivial
  | setNickname nickname => exact h
  | sendMessage target text =>
    refine ⟨h.1, ?_⟩
    cases target with
    | everyone => trivial
    | direct peerId => exact h.2 peerId (.inl rfl)
    | group groupId => exact h.2 groupId (.inr rfl)
  | createGroup name ids => exact h
  | setPresence presence =>
    cases presence with
    | online => exact fun h => Presence.noConfusion h
    | away => exact fun h => Presence.noConfusion h
  | requestState => trivial

/-- **The browser and the gateway have the same messages.** What the gateway accepts is within the
limits, is accepted again as the object it is, and is what it makes of every value that agrees with
the first in the fields of the variant. What the browser sends within the limits is accepted, and is
the same object, if the text is parsed to the value it was made of. -/
theorem protocol_agrees (stringify : Json → Units) (parse : Units → Option Json) :
    (∀ v m, validateClientMessage v = .ok (.ok m) →
      m.WithinLimits ∧ validateClientMessage m.toJson = .ok (.ok m) ∧
        ∀ v', m.AgreeOn v v' → validateClientMessage v' = .ok (.ok m)) ∧
    ∀ message : ClientMessage, message.WithinLimits →
      parse (stringify message.toJson) = some message.toJson →
      ∃ v m, parse (encodeOutbound stringify message) = some v ∧
        validateClientMessage v = .ok (.ok m) ∧
        m.toJson = message.toJson := by
  constructor
  · intro v m h
    obtain ⟨hd, hl⟩ := accepted_iff.mp h
    exact ⟨hl, accepted_iff.mpr ⟨m.describes_toJson, hl⟩,
      fun v' ha => accepted_iff.mpr ⟨hd.of_agree ha, hl⟩⟩
  · intro message hl hparse
    have hd := message.received.describes_toJson
    rw [toJson_received] at hd
    exact ⟨message.toJson, message.received, hparse,
      accepted_iff.mpr ⟨hd, withinLimits_received hl⟩,
      toJson_received message⟩

/-- What the gateway accepts is a message of the browser. -/
theorem exists_message (h : m.WithinLimits) :
    ∃ message : ClientMessage, message.WithinLimits ∧ message.received = m := by
  cases m with
  | register username password => exact ⟨.register username password, h, rfl⟩
  | login username password => exact ⟨.login username password, h, rfl⟩
  | logout => exact ⟨.logout, trivial, rfl⟩
  | setNickname nickname => exact ⟨.setNickname nickname, h, rfl⟩
  | sendMessage target text =>
    cases target with
    | everyone =>
      refine ⟨.sendMessage .everyone text, ⟨h.1, ?_⟩, rfl⟩
      intro id hid
      rcases hid with hid | hid <;> cases hid
    | direct peerId =>
      refine ⟨.sendMessage (.direct peerId) text, ⟨h.1, ?_⟩, rfl⟩
      intro id hid
      rcases hid with hid | hid <;> cases hid
      exact h.2
    | group groupId =>
      refine ⟨.sendMessage (.group groupId) text, ⟨h.1, ?_⟩, rfl⟩
      intro id hid
      rcases hid with hid | hid <;> cases hid
      exact h.2
  | createGroup name ids => exact ⟨.createGroup name ids, h, rfl⟩
  | setPresence presence =>
    cases presence with
    | online => exact ⟨.setPresence .online, trivial, rfl⟩
    | away => exact ⟨.setPresence .away, trivial, rfl⟩
    | offline => exact absurd rfl h
  | requestState => exact ⟨.requestState, trivial, rfl⟩

/-- A direct message, as a text. -/
def helloText : Units :=
  units
    "\x7b\"type\":\"sendMessage\",\"target\":\x7b\"kind\":\"direct\",\"peerId\":\"u2\"\x7d,\"text\":\"hi\"\x7d"

/-- The message. -/
def hello : ClientMessage := .sendMessage (.direct (units "u2")) (units "hi")

/-- The message with fields nobody asked for. -/
def helloWithMore : Json :=
  .obj [(units "text", .str (units "hi")), (units "admin", .bool true),
    (units "type", .str (units "sendMessage")),
    (units "target", .obj [(units "peerId", .str (units "u2")), (units "groupId", .num (units "7")),
      (units "kind", .str (units "direct"))])]

theorem hello_is_received :
    validateClientMessage helloWithMore = .ok (.ok hello.received) ∧
      ∃ v m, validateClientMessage v = .ok (.ok m) ∧ m.toJson = hello.toJson := by
  have h := protocol_agrees (fun _ => helloText) fun text =>
    if text = helloText then some hello.toJson else none
  have hl : hello.WithinLimits := ⟨⟨by decide, by decide⟩, fun id hid => by
    rcases hid with hid | hid
    · cases hid
      decide
    · cases hid⟩
  -- both objects are read to the value, which is cheaper than comparing the two reads
  have hfield {o o' : Option Json} (value : Json) (ho : o = some value) (ho' : o' = some value) :
      o = o' := ho.trans ho'.symm
  have hkeys : ∀ key ∈ hello.received.keys, helloWithMore.get key = hello.toJson.get key := by
    intro key hkey
    rcases List.mem_cons.mp hkey with rfl | hkey
    · exact hfield (.str (units "sendMessage")) rfl rfl
    · obtain rfl := List.mem_singleton.mp hkey
      exact hfield (.str (units "hi")) rfl rfl
  have htarget : ∀ target ∈ hello.received.target?, ∀ key ∈ target.keys,
      (helloWithMore.get (units "target")).bind (fun t => t.get key) =
        (hello.toJson.get (units "target")).bind fun t => t.get key := by
    intro target htarget key hkey
    obtain rfl := Option.some.inj htarget
    rcases List.mem_cons.mp hkey with rfl | hkey
    · exact hfield (.str (units "direct")) rfl rfl
    · obtain rfl := List.mem_singleton.mp hkey
      exact hfield (.str (units "u2")) rfl rfl
  obtain ⟨v, m, -, hv, hm⟩ := h.2 hello hl (if_pos rfl)
  exact ⟨(h.1 hello.toJson hello.received rfl).2.2 helloWithMore ⟨hkeys, htarget⟩, v, m, hv, hm⟩

end Protocol

end ThreadLink.Frontend
