import ThreadLink.Gateway.ClientProtocol

/-!
# What the validator accepts

A message of the protocol is an object with the fields of its variant. The validator takes a parsed
value that has these fields, whatever else it has, and makes the message of them.

## The model

* `ClientMessage.toJson` is the message as the validator returns it, an object.
* `ClientMessage.Describes` says that a value has the fields of the message, `WithinLimits` that the
  limits of the protocol hold of them.
* `ClientMessage.AgreeOn` says that two values have the same in the fields of the variant.

## What is proved

* `accepted_iff` — **a value is accepted with a message exactly when it has the fields of the
  message and these are within the limits**.
* `describes_toJson`, `Describes.of_agree` — so the message itself is accepted as it is, and other
  fields have no influence.
-/

namespace ThreadLink.Gateway

open Text
open Json (nonEmptyString? lookup)

variable {v v' t t' : Json} {m : ClientMessage} {target : MessageTarget} {max : ℕ}
  {value : Option Json}
  {s type : Units} {ids : List Units}

/-! ### Messages as values -/

/-- A presence, in the protocol. -/
def Presence.name : Presence → Units
  | .online => units "online"
  | .away => units "away"
  | .offline => units "offline"

/-- A target, as `validateTarget` returns it. -/
def MessageTarget.toJson : MessageTarget → Json
  | .everyone => .obj [(units "kind", .str (units "public"))]
  | .direct peerId => .obj [(units "kind", .str (units "direct")), (units "peerId", .str peerId)]
  | .group groupId => .obj [(units "kind", .str (units "group")), (units "groupId", .str groupId)]

/-- A message, as `validateClientMessage` returns it. -/
def ClientMessage.toJson : ClientMessage → Json
  | .register username password =>
    .obj [(units "type", .str (units "register")), (units "username", .str username),
      (units "password", .str password)]
  | .login username password =>
    .obj [(units "type", .str (units "login")), (units "username", .str username),
      (units "password", .str password)]
  | .logout => .obj [(units "type", .str (units "logout"))]
  | .setNickname nickname =>
    .obj [(units "type", .str (units "setNickname")), (units "nickname", .str nickname)]
  | .sendMessage target text =>
    .obj [(units "type", .str (units "sendMessage")), (units "target", target.toJson),
      (units "text", .str text)]
  | .createGroup name memberIds =>
    .obj [(units "type", .str (units "createGroup")), (units "name", .str name),
      (units "memberIds", .arr (memberIds.map .str))]
  | .setPresence presence =>
    .obj [(units "type", .str (units "setPresence")), (units "presence", .str presence.name)]
  | .requestState => .obj [(units "type", .str (units "requestState"))]

/-- The value has the string as its field. -/
def HasString (v : Json) (key text : Units) : Prop := v.get key = some (.str text)

/-- **The value has the fields of the target.** -/
def MessageTarget.Describes : MessageTarget → Json → Prop
  | .everyone, v => HasString v (units "kind") (units "public")
  | .direct peerId, v =>
    HasString v (units "kind") (units "direct") ∧ HasString v (units "peerId") peerId
  | .group groupId, v =>
    HasString v (units "kind") (units "group") ∧ HasString v (units "groupId") groupId

/-- **The value has the fields of the message.** -/
def ClientMessage.Describes : ClientMessage → Json → Prop
  | .register username password, v =>
    HasString v (units "type") (units "register") ∧ HasString v (units "username") username ∧
      HasString v (units "password") password
  | .login username password, v =>
    HasString v (units "type") (units "login") ∧ HasString v (units "username") username ∧
      HasString v (units "password") password
  | .logout, v => HasString v (units "type") (units "logout")
  | .setNickname nickname, v =>
    HasString v (units "type") (units "setNickname") ∧ HasString v (units "nickname") nickname
  | .sendMessage target text, v =>
    HasString v (units "type") (units "sendMessage") ∧ HasString v (units "text") text ∧
      ∃ t, v.get (units "target") = some t ∧ target.Describes t
  | .createGroup name memberIds, v =>
    HasString v (units "type") (units "createGroup") ∧ HasString v (units "name") name ∧
      v.get (units "memberIds") = some (.arr (memberIds.map .str))
  | .setPresence presence, v =>
    HasString v (units "type") (units "setPresence") ∧ HasString v (units "presence") presence.name
  | .requestState, v => HasString v (units "type") (units "requestState")

/-- The fields of a target of this kind. -/
def MessageTarget.keys : MessageTarget → List Units
  | .everyone => [units "kind"]
  | .direct _ => [units "kind", units "peerId"]
  | .group _ => [units "kind", units "groupId"]

/-- The fields of a message of this type, but for its target. -/
def ClientMessage.keys : ClientMessage → List Units
  | .register _ _ | .login _ _ => [units "type", units "username", units "password"]
  | .setNickname _ => [units "type", units "nickname"]
  | .sendMessage _ _ => [units "type", units "text"]
  | .createGroup _ _ => [units "type", units "name", units "memberIds"]
  | .setPresence _ => [units "type", units "presence"]
  | .logout | .requestState => [units "type"]

/-- The target of a message, if its type has one. -/
def ClientMessage.target? : ClientMessage → Option MessageTarget
  | .sendMessage target _ => some target
  | _ => none

/-- **The values agree in the fields of the variant**, of its target too. -/
structure ClientMessage.AgreeOn (m : ClientMessage) (v v' : Json) : Prop where
  /-- The fields but for the target. -/
  keys : ∀ key ∈ m.keys, v'.get key = v.get key
  /-- The fields of the target. -/
  target : ∀ target ∈ m.target?, ∀ key ∈ target.keys,
    (v'.get (units "target")).bind (fun t => t.get key) = (v.get (units "target")).bind fun t =>
    t.get key

/-- The id in a target is not empty. -/
def MessageTarget.HasId : MessageTarget → Prop
  | .everyone => True
  | .direct peerId => peerId ≠ []
  | .group groupId => groupId ≠ []

/-- **The limits of the protocol.** -/
def ClientMessage.WithinLimits : ClientMessage → Prop
  | .register username password | .login username password =>
    Within maxUsernameLen username ∧ Within maxPasswordLen password
  | .setNickname nickname => Within maxNicknameLen nickname
  | .sendMessage target text => Within maxTextLen text ∧ target.HasId
  | .createGroup name memberIds =>
    Within maxGroupNameLen name ∧ memberIds ≠ [] ∧ memberIds.length ≤ maxGroupMembers ∧
      ∀ id ∈ memberIds, id ≠ []
  | .setPresence presence => presence ≠ .offline
  | .logout | .requestState => True

/-! ### Fields -/

theorem nonEmptyString?_iff : nonEmptyString? value = some s ↔ value = some (.str s) ∧ s ≠ [] := by
  unfold nonEmptyString?
  split
  · rename_i s'
    simp only [ite_eq_iff, reduceCtorEq, and_false, false_or, Option.some.injEq, Json.str.injEq,
      List.isEmpty_iff]
    constructor
    · rintro ⟨hne, rfl⟩
      exact ⟨rfl, hne⟩
    · rintro ⟨rfl, hne⟩
      exact ⟨hne, rfl⟩
  · rename_i hnot
    constructor
    · intro h
      cases h
    · rintro ⟨rfl, -⟩
      exact absurd rfl (hnot s)

theorem stringUpTo?_iff :
    stringUpTo? max value = some s ↔ value = some (.str s) ∧ Within max s := by
  rw [stringUpTo?, Option.filter_eq_some_iff, nonEmptyString?_iff, decide_eq_true_eq, and_assoc]
  rfl

/-- Every element is a string, and not empty. -/
theorem mapM_nonEmptyString?_iff {elements : List Json} :
    elements.mapM (fun m => nonEmptyString? (some m)) = some ids ↔
    elements = ids.map .str ∧ ∀ id ∈ ids, id ≠ [] := by
  induction elements generalizing ids with
  | nil =>
    rw [List.mapM_nil]
    constructor
    · intro h
      obtain rfl := Option.some.inj h
      exact ⟨rfl, fun id hid => by cases hid⟩
    · rintro ⟨h, -⟩
      rw [List.map_eq_nil_iff.mp h.symm]
      rfl
  | cons v elements ih =>
    rw [List.mapM_cons]
    constructor
    · intro h
      obtain ⟨s, hs, h⟩ := Option.bind_eq_some_iff.mp h
      obtain ⟨ids', hids', h⟩ := Option.bind_eq_some_iff.mp h
      obtain rfl := Option.some.inj h
      obtain ⟨hv, hne⟩ := nonEmptyString?_iff.mp hs
      obtain ⟨hrest, hall⟩ := ih.mp hids'
      rw [Option.some.inj hv, hrest]
      exact ⟨rfl, List.forall_mem_cons.mpr ⟨hne, hall⟩⟩
    · rintro ⟨h, hall⟩
      cases ids with
      | nil => cases h
      | cons s ids =>
        obtain ⟨rfl, hrest⟩ := List.cons.inj h
        obtain ⟨hne, hall⟩ := List.forall_mem_cons.mp hall
        rw [nonEmptyString?_iff.mpr ⟨rfl, hne⟩, ih.mpr ⟨hrest, hall⟩]
        rfl

theorem memberIds?_iff :
    memberIds? value = some ids ↔
      value = some (.arr (ids.map .str)) ∧ ids ≠ [] ∧ ids.length ≤ maxGroupMembers ∧
      ∀ id ∈ ids, id ≠ [] := by
  constructor
  · intro h
    obtain ⟨hne, hlen⟩ := bounded_of_memberIds? h
    unfold memberIds? at h
    split at h
    · split_ifs at h
      obtain ⟨rfl, hall⟩ := mapM_nonEmptyString?_iff.mp h
      exact ⟨rfl, hne, hlen, hall⟩
    · cases h
  · rintro ⟨rfl, hne, hlen, hall⟩
    have hfits : ¬ ((ids.map Json.str).isEmpty || maxGroupMembers < (ids.map Json.str).length) =
        true := by
      simp only [List.isEmpty_map, List.length_map, Bool.or_eq_true, List.isEmpty_iff,
        decide_eq_true_eq]
      exact fun h => h.elim hne (Nat.not_lt.mpr hlen)
    simp only [memberIds?, if_neg hfits]
    exact mapM_nonEmptyString?_iff.mpr ⟨rfl, hall⟩

/-- Only an object has fields. -/
theorem isObject_of_get {key : Units} (h : v.get key = some t) : v.isObject = true := by
  cases v <;> first | rfl | cases h

/-- **A target is accepted when it has its fields**, and its id is not empty. -/
theorem validateTarget_iff :
    validateTarget value = .inl target ↔
    ∃ t, value = some t ∧ target.Describes t ∧ target.HasId := by
  constructor
  · intro h
    unfold validateTarget at h
    split at h
    · cases h
    · rename_i t
      split_ifs at h
      split at h
      · rename_i kind hkind
        split_ifs at h with hpublic hdirect hgroup
        · cases h
          subst hpublic
          exact ⟨t, rfl, hkind, trivial⟩
        · split at h <;> cases h
          rename_i peerId hid
          obtain ⟨hget, hne⟩ := nonEmptyString?_iff.mp hid
          exact ⟨t, rfl, ⟨hdirect ▸ hkind, hget⟩, hne⟩
        · split at h <;> cases h
          rename_i groupId hid
          obtain ⟨hget, hne⟩ := nonEmptyString?_iff.mp hid
          exact ⟨t, rfl, ⟨hgroup ▸ hkind, hget⟩, hne⟩
      · cases h
  · rintro ⟨t, rfl, hd, hid⟩
    cases target with
    | everyone =>
      have hkind : t.get (units "kind") = some (.str (units "public")) := hd
      simp only [validateTarget, isObject_of_get hkind, hkind, Bool.not_true, Bool.false_eq_true,
        if_false, if_true]
    | direct peerId =>
      obtain ⟨hkind, hpeer⟩ := hd
      have hne : units "direct" ≠ units "public" := by decide
      simp only [HasString] at hkind hpeer
      simp only [validateTarget, isObject_of_get hkind, hkind, hne, hpeer,
        nonEmptyString?_iff.mpr ⟨rfl, hid⟩,
        Bool.not_true, Bool.false_eq_true, if_false, if_true]
    | group groupId =>
      obtain ⟨hkind, hgroup⟩ := hd
      have hpublic : units "group" ≠ units "public" := by decide
      have hdirect : units "group" ≠ units "direct" := by decide
      simp only [HasString] at hkind hgroup
      simp only [validateTarget, isObject_of_get hkind, hkind, hpublic, hdirect, hgroup,
        nonEmptyString?_iff.mpr ⟨rfl, hid⟩, Bool.not_true, Bool.false_eq_true, if_false, if_true]

/-! ### The variants -/

theorem validateCredentials_iff {message : Units → Units → ClientMessage} :
    validateCredentials v message = .ok m ↔ ∃ username password, m = message username password ∧
      (HasString v (units "username") username ∧ HasString v (units "password") password) ∧
      Within maxUsernameLen username ∧ Within maxPasswordLen password := by
  constructor
  · intro h
    unfold validateCredentials at h
    split at h
    · cases h
    · rename_i username hu
      split at h <;> cases h
      rename_i password hp
      obtain ⟨hget, hwithin⟩ := stringUpTo?_iff.mp hu
      obtain ⟨hget', hwithin'⟩ := stringUpTo?_iff.mp hp
      exact ⟨username, password, rfl, ⟨hget, hget'⟩, hwithin, hwithin'⟩
  · rintro ⟨username, password, rfl, ⟨hu, hp⟩, hwithin, hwithin'⟩
    rw [validateCredentials, stringUpTo?_iff.mpr ⟨hu, hwithin⟩, stringUpTo?_iff.mpr ⟨hp, hwithin'⟩]

theorem validateSetNickname_iff :
    validateSetNickname v = .ok m ↔ ∃ nickname, m = .setNickname nickname ∧
      HasString v (units "nickname") nickname ∧ Within maxNicknameLen nickname := by
  constructor
  · intro h
    unfold validateSetNickname at h
    split at h <;> cases h
    rename_i nickname hn
    exact ⟨nickname, rfl, stringUpTo?_iff.mp hn⟩
  · rintro ⟨nickname, rfl, h⟩
    rw [validateSetNickname, stringUpTo?_iff.mpr h]

theorem validateSendMessage_iff :
    validateSendMessage v = .ok m ↔ ∃ target text, m = .sendMessage target text ∧
      (HasString v (units "text") text ∧ ∃ t, v.get (units "target") = some t ∧
        target.Describes t) ∧
      Within maxTextLen text ∧ target.HasId := by
  constructor
  · intro h
    unfold validateSendMessage at h
    split at h
    · cases h
    · rename_i text ht
      split at h <;> cases h
      rename_i target htarget
      obtain ⟨hget, hwithin⟩ := stringUpTo?_iff.mp ht
      obtain ⟨t, hvalue, hd, hid⟩ := validateTarget_iff.mp htarget
      exact ⟨target, text, rfl, ⟨hget, t, hvalue, hd⟩, hwithin, hid⟩
  · rintro ⟨target, text, rfl, ⟨ht, t, hvalue, hd⟩, hwithin, hid⟩
    rw [validateSendMessage, stringUpTo?_iff.mpr ⟨ht, hwithin⟩,
      validateTarget_iff.mpr ⟨t, hvalue, hd, hid⟩]

theorem validateCreateGroup_iff :
    validateCreateGroup v = .ok m ↔ ∃ name ids, m = .createGroup name ids ∧
      (HasString v (units "name") name ∧ v.get (units "memberIds") = some (.arr (ids.map .str))) ∧
      Within maxGroupNameLen name ∧ ids ≠ [] ∧ ids.length ≤ maxGroupMembers ∧
      ∀ id ∈ ids, id ≠ [] := by
  constructor
  · intro h
    unfold validateCreateGroup at h
    split at h
    · cases h
    · rename_i name hname
      split at h <;> cases h
      rename_i ids hids
      obtain ⟨hget, hwithin⟩ := stringUpTo?_iff.mp hname
      obtain ⟨hmembers, hlimits⟩ := memberIds?_iff.mp hids
      exact ⟨name, ids, rfl, ⟨hget, hmembers⟩, hwithin, hlimits⟩
  · rintro ⟨name, ids, rfl, ⟨hget, hmembers⟩, hwithin, hlimits⟩
    rw [validateCreateGroup, stringUpTo?_iff.mpr ⟨hget, hwithin⟩,
      memberIds?_iff.mpr ⟨hmembers, hlimits⟩]

theorem validateSetPresence_iff :
    validateSetPresence v = .ok m ↔ ∃ presence : Presence, m = .setPresence presence ∧
      HasString v (units "presence") presence.name ∧ presence ≠ .offline := by
  constructor
  · intro h
    unfold validateSetPresence at h
    split at h
    · rename_i text hget
      split_ifs at h with honline haway
      · cases h
        subst honline
        exact ⟨.online, rfl, hget, by decide⟩
      · cases h
        subst haway
        exact ⟨.away, rfl, hget, by decide⟩
    · cases h
  · rintro ⟨presence, rfl, hget, hne⟩
    rw [HasString] at hget
    cases presence with
    | online =>
      rw [validateSetPresence, hget]
      exact if_pos rfl
    | away =>
      rw [validateSetPresence, hget]
      exact (if_neg (by decide)).trans (if_pos rfl)
    | offline => exact absurd rfl hne

/-! ### The whole message -/

/-- A value with a known type goes to its case. -/
theorem validateClientMessage_of_known {result : ValidationResult}
    (ht : HasString v (units "type") type) (hk : validateKnown v type = some result) :
    validateClientMessage v = .ok result := by
  rw [HasString] at ht
  simp only [validateClientMessage, isObject_of_get ht, ht, hk, Bool.not_true, Bool.false_eq_true,
    if_false]

/-- A value that is accepted has a known type. -/
theorem known_of_accepted (h : validateClientMessage v = .ok (.ok m)) :
    ∃ type, HasString v (units "type") type ∧ validateKnown v type = some (.ok m) := by
  have hunknown (type : Option Json) : validateUnknown type ≠ .ok (.ok m) := by
    intro hu
    unfold validateUnknown at hu
    cases ht : Json.toText? type <;> rw [ht] at hu <;> cases hu
  unfold validateClientMessage at h
  split_ifs at h
  · cases h
  · split at h
    · rename_i type htype
      split at h
      · rename_i result hk
        exact ⟨type, htype, Except.ok.inj h ▸ hk⟩
      · exact absurd h (hunknown _)
    · exact absurd h (hunknown _)

/-- **A value is accepted with a message exactly when it has the fields of the message, within the
limits.** -/
theorem accepted_iff : validateClientMessage v = .ok (.ok m) ↔ m.Describes v ∧ m.WithinLimits := by
  constructor
  · intro h
    obtain ⟨type, ht, hk⟩ := known_of_accepted h
    unfold validateKnown at hk
    split_ifs at hk with h1 h2 h3 h4 h5 h6 h7 h8
    · subst h1
      obtain ⟨username, password, rfl, hd, hl⟩ := validateCredentials_iff.mp (Option.some.inj hk)
      exact ⟨⟨ht, hd⟩, hl⟩
    · subst h2
      obtain ⟨username, password, rfl, hd, hl⟩ := validateCredentials_iff.mp (Option.some.inj hk)
      exact ⟨⟨ht, hd⟩, hl⟩
    · subst h3
      cases hk
      exact ⟨ht, trivial⟩
    · subst h4
      obtain ⟨nickname, rfl, hd, hl⟩ := validateSetNickname_iff.mp (Option.some.inj hk)
      exact ⟨⟨ht, hd⟩, hl⟩
    · subst h5
      obtain ⟨target, text, rfl, hd, hl⟩ := validateSendMessage_iff.mp (Option.some.inj hk)
      exact ⟨⟨ht, hd⟩, hl⟩
    · subst h6
      obtain ⟨name, ids, rfl, hd, hl⟩ := validateCreateGroup_iff.mp (Option.some.inj hk)
      exact ⟨⟨ht, hd⟩, hl⟩
    · subst h7
      obtain ⟨presence, rfl, hd, hl⟩ := validateSetPresence_iff.mp (Option.some.inj hk)
      exact ⟨⟨ht, hd⟩, hl⟩
    · subst h8
      cases hk
      exact ⟨ht, trivial⟩
  · rintro ⟨hd, hl⟩
    cases m with
    | register username password =>
      apply validateClientMessage_of_known hd.1
      rw [validateKnown, if_pos rfl,
        validateCredentials_iff.mpr ⟨username, password, rfl, hd.2, hl⟩]
    | login username password =>
      apply validateClientMessage_of_known hd.1
      rw [validateKnown, if_neg (by decide), if_pos rfl,
        validateCredentials_iff.mpr ⟨username, password, rfl, hd.2, hl⟩]
    | logout =>
      apply validateClientMessage_of_known hd
      rw [validateKnown, if_neg (by decide), if_neg (by decide), if_pos rfl]
    | setNickname nickname =>
      apply validateClientMessage_of_known hd.1
      rw [validateKnown, if_neg (by decide), if_neg (by decide), if_neg (by decide), if_pos rfl,
        validateSetNickname_iff.mpr ⟨nickname, rfl, hd.2, hl⟩]
    | sendMessage target text =>
      apply validateClientMessage_of_known hd.1
      rw [validateKnown, if_neg (by decide), if_neg (by decide), if_neg (by decide),
        if_neg (by decide), if_pos rfl,
        validateSendMessage_iff.mpr ⟨target, text, rfl, hd.2, hl⟩]
    | createGroup name ids =>
      apply validateClientMessage_of_known hd.1
      rw [validateKnown, if_neg (by decide), if_neg (by decide), if_neg (by decide),
        if_neg (by decide),
        if_neg (by decide), if_pos rfl, validateCreateGroup_iff.mpr ⟨name, ids, rfl, hd.2, hl⟩]
    | setPresence presence =>
      apply validateClientMessage_of_known hd.1
      rw [validateKnown, if_neg (by decide), if_neg (by decide), if_neg (by decide),
        if_neg (by decide),
        if_neg (by decide), if_neg (by decide), if_pos rfl,
        validateSetPresence_iff.mpr ⟨presence, rfl, hd.2, hl⟩]
    | requestState =>
      apply validateClientMessage_of_known hd
      rw [validateKnown, if_neg (by decide), if_neg (by decide), if_neg (by decide),
        if_neg (by decide),
        if_neg (by decide), if_neg (by decide), if_neg (by decide), if_pos rfl]

/-! ### The fields that count -/

/-- A target made of its fields has them. -/
theorem MessageTarget.describes_toJson (target : MessageTarget) :
    target.Describes target.toJson := by
  cases target with
  | everyone => exact rfl
  | direct peerId => exact ⟨rfl, rfl⟩
  | group groupId => exact ⟨rfl, rfl⟩

/-- So does a message. -/
theorem ClientMessage.describes_toJson (m : ClientMessage) : m.Describes m.toJson := by
  cases m with
  | register username password => exact ⟨rfl, rfl, rfl⟩
  | login username password => exact ⟨rfl, rfl, rfl⟩
  | logout => exact rfl
  | setNickname nickname => exact ⟨rfl, rfl⟩
  | sendMessage target text => exact ⟨rfl, rfl, target.toJson, rfl, target.describes_toJson⟩
  | createGroup name ids => exact ⟨rfl, rfl, rfl⟩
  | setPresence presence => exact ⟨rfl, rfl⟩
  | requestState => exact rfl

/-- A target is told by its fields. -/
theorem MessageTarget.Describes.of_agree {o : Option Json} (h : target.Describes t)
    (ha : ∀ key ∈ target.keys, o.bind (fun t => t.get key) = t.get key) :
    ∃ t', o = some t' ∧ target.Describes t' := by
  have hobject : ∀ kind : Units, HasString t (units "kind") kind → units "kind" ∈ target.keys →
      ∃ t', o = some t' := by
    intro kind hkind hkey
    cases o with
    | none => exact absurd ((ha _ hkey).trans hkind) (fun h => by cases h)
    | some t' => exact ⟨t', rfl⟩
  cases target with
  | everyone =>
    obtain ⟨t', rfl⟩ := hobject _ h (.head _)
    exact ⟨t', rfl, (ha _ (.head _)).trans h⟩
  | direct peerId =>
    obtain ⟨t', rfl⟩ := hobject _ h.1 (.head _)
    exact ⟨t', rfl, (ha _ (.head _)).trans h.1, (ha _ (.tail _ (.head _))).trans h.2⟩
  | group groupId =>
    obtain ⟨t', rfl⟩ := hobject _ h.1 (.head _)
    exact ⟨t', rfl, (ha _ (.head _)).trans h.1, (ha _ (.tail _ (.head _))).trans h.2⟩

/-- **A message is told by the fields of its variant.** -/
theorem ClientMessage.Describes.of_agree (h : m.Describes v) (ha : m.AgreeOn v v') :
    m.Describes v' := by
  have hkeys := ha.keys
  cases m with
  | register username password =>
    exact ⟨(hkeys _ (.head _)).trans h.1, (hkeys _ (.tail _ (.head _))).trans h.2.1,
      (hkeys _ (.tail _ (.tail _ (.head _)))).trans h.2.2⟩
  | login username password =>
    exact ⟨(hkeys _ (.head _)).trans h.1, (hkeys _ (.tail _ (.head _))).trans h.2.1,
      (hkeys _ (.tail _ (.tail _ (.head _)))).trans h.2.2⟩
  | logout => exact (hkeys _ (.head _)).trans h
  | setNickname nickname =>
    exact ⟨(hkeys _ (.head _)).trans h.1, (hkeys _ (.tail _ (.head _))).trans h.2⟩
  | sendMessage target text =>
    obtain ⟨htype, htext, t, ht, hd⟩ := h
    have htarget := ha.target target rfl
    rw [ht] at htarget
    exact ⟨(hkeys _ (.head _)).trans htype, (hkeys _ (.tail _ (.head _))).trans htext,
      hd.of_agree htarget⟩
  | createGroup name ids =>
    exact ⟨(hkeys _ (.head _)).trans h.1, (hkeys _ (.tail _ (.head _))).trans h.2.1,
      (hkeys _ (.tail _ (.tail _ (.head _)))).trans h.2.2⟩
  | setPresence presence =>
    exact ⟨(hkeys _ (.head _)).trans h.1, (hkeys _ (.tail _ (.head _))).trans h.2⟩
  | requestState => exact (hkeys _ (.head _)).trans h

end ThreadLink.Gateway
