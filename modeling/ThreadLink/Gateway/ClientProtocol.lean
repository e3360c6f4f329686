import ThreadLink.Lib.Json

/-!
# The protocol between browser and gateway

`src/clientProtocol.ts`: the messages a client may send, the events the gateway
sends, and the validator that turns a parsed JSON value into a message.

## What is proved

* `validateClientMessage_isOk_iff` — the validator raises exactly where it puts a `type`
  that is not `Printable` into its error text.
* `bounded_of_accepted` — the fields of an accepted message are within their bounds.
-/

namespace ThreadLink.Gateway

open Text
open Json (TypeError toText? toText?_isOk_iff nonEmptyString?)

/-- Presence of a user. A client sets the first two. -/
inductive Presence where
  /-- `"online"`. -/
  | online
  /-- `"away"`. -/
  | away
  /-- `"offline"`. -/
  | offline
  deriving DecidableEq, Repr

/-- `MessageTarget`. -/
inductive MessageTarget where
  /-- Everyone. -/
  | everyone
  /-- One user. -/
  | direct (peerId : Units)
  /-- A group. -/
  | group (groupId : Units)
  deriving DecidableEq, Repr

/-- `ClientMessage`. -/
inductive ClientMessage where
  /-- `register`. -/
  | register (username password : Units)
  /-- `login`. -/
  | login (username password : Units)
  /-- `logout`. -/
  | logout
  /-- `setNickname`. -/
  | setNickname (nickname : Units)
  /-- `sendMessage`. -/
  | sendMessage (target : MessageTarget) (text : Units)
  /-- `createGroup`. -/
  | createGroup (name : Units) (memberIds : List Units)
  /-- `setPresence`. -/
  | setPresence (presence : Presence)
  /-- `requestState`. -/
  | requestState
  deriving DecidableEq, Repr

/-! ### Validation -/

/-- `MAX_NICKNAME_LEN`. -/
def maxNicknameLen : ℕ := 24

/-- `MAX_TEXT_LEN`. -/
def maxTextLen : ℕ := 4000

/-- `MAX_GROUP_NAME_LEN`. -/
def maxGroupNameLen : ℕ := 48

/-- `MAX_GROUP_MEMBERS`. -/
def maxGroupMembers : ℕ := 64

/-- `MAX_USERNAME_LEN`. -/
def maxUsernameLen : ℕ := 24

/-- `MAX_PASSWORD_LEN`. -/
def maxPasswordLen : ℕ := 256

/-- `ValidationResult`. -/
inductive ValidationResult where
  /-- The message. -/
  | ok (message : ClientMessage)
  /-- Why there is none. -/
  | error (error : Units)
  deriving DecidableEq, Repr

/-- A non-empty string of at most `max` code units. -/
def stringUpTo? (max : ℕ) (value : Option Json) : Option Units :=
  (nonEmptyString? value).filter fun s => s.length ≤ max

/-- The cases `register` and `login`. -/
def validateCredentials (obj : Json) (message : Units → Units → ClientMessage) : ValidationResult :=
  match stringUpTo? maxUsernameLen (obj.get (units "username")) with
  | none =>
    .error (units "username must be 1-" ++ units (toString maxUsernameLen) ++ units " characters")
  | some username =>
    match stringUpTo? maxPasswordLen (obj.get (units "password")) with
    | none => .error (units "password is required")
    | some password => .ok (message username password)

/-- `validateTarget`. -/
def validateTarget (raw : Option Json) : MessageTarget ⊕ Units :=
  match raw with
  | none => .inr (units "target must be an object")
  | some obj =>
    if !obj.isObject then .inr (units "target must be an object")
    else
      match obj.get (units "kind") with
      | some (.str kind) =>
        if kind = units "public" then .inl .everyone
        else if kind = units "direct" then
          match nonEmptyString? (obj.get (units "peerId")) with
          | none => .inr (units "direct target requires peerId")
          | some peerId => .inl (.direct peerId)
        else if kind = units "group" then
          match nonEmptyString? (obj.get (units "groupId")) with
          | none => .inr (units "group target requires groupId")
          | some groupId => .inl (.group groupId)
        else .inr (units "target.kind must be 'public', 'direct', or 'group'")
      | _ => .inr (units "target.kind must be 'public', 'direct', or 'group'")

/-- The case `sendMessage`. -/
def validateSendMessage (obj : Json) : ValidationResult :=
  match stringUpTo? maxTextLen (obj.get (units "text")) with
  | none => .error (units "text must be 1-" ++ units (toString maxTextLen) ++ units " characters")
  | some text =>
    match validateTarget (obj.get (units "target")) with
    | .inr error => .error error
    | .inl target => .ok (.sendMessage target text)

/-- The elements of an array of user ids. -/
def memberIds? (value : Option Json) : Option (List Units) :=
  match value with
  | some (.arr elements) =>
    if elements.isEmpty || maxGroupMembers < elements.length then none
    else elements.mapM fun m => nonEmptyString? (some m)
  | _ => none

/-- The case `createGroup`. -/
def validateCreateGroup (obj : Json) : ValidationResult :=
  match stringUpTo? maxGroupNameLen (obj.get (units "name")) with
  | none =>
    .error (units "group name must be 1-" ++ units (toString maxGroupNameLen) ++
      units " characters")
  | some name =>
    match memberIds? (obj.get (units "memberIds")) with
    | none =>
      .error (units "memberIds must be a non-empty array of up to " ++
        units (toString maxGroupMembers) ++
        units " user ids")
    | some memberIds => .ok (.createGroup name memberIds)

/-- The case `setNickname`. -/
def validateSetNickname (obj : Json) : ValidationResult :=
  match stringUpTo? maxNicknameLen (obj.get (units "nickname")) with
  | none =>
    .error (units "nickname must be 1-" ++ units (toString maxNicknameLen) ++ units " characters")
  | some nickname => .ok (.setNickname nickname)

/-- The case `setPresence`. -/
def validateSetPresence (obj : Json) : ValidationResult :=
  match obj.get (units "presence") with
  | some (.str presence) =>
    if presence = units "online" then .ok (.setPresence .online)
    else if presence = units "away" then .ok (.setPresence .away)
    else .error (units "presence must be 'online' or 'away'")
  | _ => .error (units "presence must be 'online' or 'away'")

/-- The cases of `validateClientMessage` that have a name. -/
def validateKnown (obj : Json) (type : Units) : Option ValidationResult :=
  if type = units "register" then some (validateCredentials obj .register)
  else if type = units "login" then some (validateCredentials obj .login)
  else if type = units "logout" then some (.ok .logout)
  else if type = units "setNickname" then some (validateSetNickname obj)
  else if type = units "sendMessage" then some (validateSendMessage obj)
  else if type = units "createGroup" then some (validateCreateGroup obj)
  else if type = units "setPresence" then some (validateSetPresence obj)
  else if type = units "requestState" then some (.ok .requestState)
  else none

/-- The default case: the error text holds what `String` makes of the type. -/
def validateUnknown (type : Option Json) : Except TypeError ValidationResult := do
  return .error (units "unknown message type '" ++ (← toText? type) ++ units "'")

/-- `validateClientMessage`. -/
def validateClientMessage (raw : Json) : Except TypeError ValidationResult :=
  if !raw.isObject then .ok (.error (units "message must be a JSON object"))
  else
    match raw.get (units "type") with
    | some (.str type) =>
      match validateKnown raw type with
      | some result => .ok result
      | none => validateUnknown (some (.str type))
    | type => validateUnknown type

/-- The type of a message, if it has one, is printable. -/
def TypePrintable (raw : Json) : Prop := ∀ type, raw.get (units "type") = some type → type.Printable

theorem validateUnknown_isOk_iff (type : Option Json) :
    (∃ result, validateUnknown type = .ok result) ↔ ∀ v, type = some v → v.Printable := by
  rw [← toText?_isOk_iff, validateUnknown]
  cases toText? type <;> simp [bind, Except.bind, pure, Except.pure]

/-- **The validator raises exactly on a message whose type is not printable.** -/
theorem validateClientMessage_isOk_iff (raw : Json) :
    (∃ result, validateClientMessage raw = .ok result) ↔ TypePrintable raw := by
  unfold validateClientMessage TypePrintable
  by_cases ho : raw.isObject
  · simp only [ho, Bool.not_true, Bool.false_eq_true, if_false]
    split
    · rename_i type ht
      have hp : ∀ v, some (Json.str type) = some v → v.Printable := fun v hv => by
        cases hv
        trivial
      rw [ht]
      split
      · simpa using hp
      · rw [validateUnknown_isOk_iff]
    · exact validateUnknown_isOk_iff _
  · have hg : raw.get (units "type") = none := by
      cases raw <;> first | rfl | exact absurd rfl ho
    simp [ho, hg]

/-- A field of 1 to `max` code units. -/
def Within (max : ℕ) (text : Units) : Prop := text ≠ [] ∧ text.length ≤ max

/-- The fields of a message are within their bounds. -/
def ClientMessage.Bounded : ClientMessage → Prop
  | .register username password | .login username password =>
    Within maxUsernameLen username ∧ Within maxPasswordLen password
  | .setNickname nickname => Within maxNicknameLen nickname
  | .sendMessage _ text => Within maxTextLen text
  | .createGroup name memberIds =>
    Within maxGroupNameLen name ∧ memberIds ≠ [] ∧ memberIds.length ≤ maxGroupMembers
  | .logout | .setPresence _ | .requestState => True

theorem within_of_stringUpTo? {max : ℕ} {value : Option Json} {text : Units}
    (h : stringUpTo? max value = some text) : Within max text := by
  obtain ⟨hs, hl⟩ := Option.filter_eq_some_iff.mp h
  refine ⟨?_, of_decide_eq_true hl⟩
  rintro rfl
  unfold nonEmptyString? at hs
  split at hs
  · rename_i s
    cases s <;> simp at hs
  · cases hs

/-- As many elements are read as there are. -/
theorem length_of_mapM {α β : Type} {f : α → Option β} {l : List α} {r : List β}
    (h : l.mapM f = some r) : r.length = l.length := by
  induction l generalizing r with
  | nil =>
    obtain rfl := Option.some.inj h
    rfl
  | cons a l ih =>
    rw [List.mapM_cons] at h
    obtain ⟨b, -, h⟩ := Option.bind_eq_some_iff.mp h
    obtain ⟨r', hr', h⟩ := Option.bind_eq_some_iff.mp h
    obtain rfl := Option.some.inj h
    rw [List.length_cons, List.length_cons, ih hr']

theorem bounded_of_memberIds? {value : Option Json} {ids : List Units}
    (h : memberIds? value = some ids) : ids ≠ [] ∧ ids.length ≤ maxGroupMembers := by
  unfold memberIds? at h
  split at h
  · rename_i elements
    split_ifs at h with he
    have hlen := length_of_mapM h
    simp only [Bool.or_eq_true, List.isEmpty_iff, decide_eq_true_eq, not_or, not_lt] at he
    refine ⟨fun hnil => he.1 ?_, hlen ▸ he.2⟩
    rw [hnil] at hlen
    exact List.length_eq_zero_iff.mp hlen.symm
  · cases h

/-- **The fields of an accepted message** are within their bounds. -/
theorem bounded_of_accepted {raw : Json} {message : ClientMessage}
    (h : validateClientMessage raw = .ok (.ok message)) : message.Bounded := by
  have hknown {type : Units} (hk : validateKnown raw type = some (.ok message)) :
      message.Bounded := by
    unfold validateKnown at hk
    split_ifs at hk <;> simp only [Option.some.injEq] at hk
    · unfold validateCredentials at hk
      split at hk <;> [cases hk; split at hk] <;> cases hk
      exact ⟨within_of_stringUpTo? ‹_›, within_of_stringUpTo? ‹_›⟩
    · unfold validateCredentials at hk
      split at hk <;> [cases hk; split at hk] <;> cases hk
      exact ⟨within_of_stringUpTo? ‹_›, within_of_stringUpTo? ‹_›⟩
    · cases hk
      trivial
    · unfold validateSetNickname at hk
      split at hk <;> cases hk
      exact within_of_stringUpTo? ‹_›
    · unfold validateSendMessage at hk
      split at hk <;> [cases hk; split at hk] <;> cases hk
      exact within_of_stringUpTo? ‹_›
    · unfold validateCreateGroup at hk
      split at hk <;> [cases hk; split at hk] <;> cases hk
      exact ⟨within_of_stringUpTo? ‹_›, bounded_of_memberIds? ‹_›⟩
    · unfold validateSetPresence at hk
      split at hk <;> [(split_ifs at hk <;> cases hk <;> trivial); cases hk]
    · cases hk
      trivial
  have hunknown (type : Option Json) : validateUnknown type ≠ .ok (.ok message) := by
    intro hu
    unfold validateUnknown at hu
    cases ht : toText? type <;> rw [ht] at hu <;> cases hu
  unfold validateClientMessage at h
  split_ifs at h
  · cases h
  · split at h
    · split at h
      · rename_i r hk
        exact hknown (Except.ok.inj h ▸ hk)
      · exact absurd h (hunknown _)
    · exact absurd h (hunknown _)

/-! ### Events -/

/-- `UserSummary`. -/
structure UserSummary where
  /-- The account. -/
  id : Units
  /-- Its live nickname. -/
  username : Units
  /-- Its presence. -/
  presence : Presence
  deriving DecidableEq, Repr

/-- `ConversationKind`. -/
inductive ConversationKind where
  /-- `"public"`. -/
  | everyone
  /-- `"direct"`. -/
  | direct
  /-- `"group"`. -/
  | group
  deriving DecidableEq, Repr

/-- `ConversationSummary`. -/
structure ConversationSummary where
  /-- The conversation. -/
  id : Units
  /-- Its kind. -/
  kind : ConversationKind
  /-- Its title. -/
  title : Units
  /-- Its members. -/
  memberIds : List Units
  deriving DecidableEq, Repr

/-- `MessageSummary`, of kind `"chat"`: the gateway makes no other. -/
structure MessageSummary where
  /-- The message. -/
  id : Units
  /-- Its conversation. -/
  conversationId : Units
  /-- The account that sent it. -/
  senderId : Option Units
  /-- The nickname it was sent under. -/
  senderUsername : Option Units
  /-- The text. -/
  text : Units
  /-- When it was made. -/
  timestamp : Units
  deriving DecidableEq, Repr

/-- `ServerMessage`. -/
inductive ServerMessage where
  /-- `ready`. -/
  | ready (userId username : Units) (users : List UserSummary)
    (conversations : List ConversationSummary)
    (messages : List MessageSummary)
  /-- `loggedOut`. -/
  | loggedOut
  /-- `userUpdate`. -/
  | userUpdate (user : UserSummary)
  /-- `userOffline`. -/
  | userOffline (userId : Units)
  /-- `conversationCreated`. -/
  | conversationCreated (conversation : ConversationSummary)
  /-- `message`. -/
  | message (message : MessageSummary)
  /-- `error`. -/
  | error (code message : Units) (conversationId : Option Units)
  deriving DecidableEq, Repr

end ThreadLink.Gateway
