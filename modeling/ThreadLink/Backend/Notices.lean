import ThreadLink.Backend.Room

/-!
# What the notices tell

A client that knows who is there, and from then on reads the notices that are for all —
who has joined, who has left, who takes which name — knows at any time who is there.

## What is proved

* `room_heard` — an event of a room changes the names in use as its notices say.
* `notices_tell_names` — from any state that the server reaches to any later one, the
  notices of the blocks between, in the order in which the blocks are run, make the names
  of the registry then out of the names of the registry before; each of them once.
-/

namespace ThreadLink.Backend

open Text Runs

variable {max : ℤ} {R R' : Room max} {e : RoomEvent} {out : List Announcement} {c : ConnId}
  {r : ClientRecord} {names : List Bytes} {name : Bytes}

/-- Who is there, for one who hears a notice. -/
def heard (names : List Bytes) : Announcement → List Bytes
  | .toAll _ (.sys text) =>
    match text.dropSuffix? (bytes " has joined.") with
    | some nickname => nickname :: names
    | none =>
      match text.dropSuffix? (bytes " has left.") with
      | some nickname => names.erase nickname
      | none => names
  | .toAll _ (.nick oldNick newNick) => names.map fun n => if n = oldNick then newNick else n
  | _ => names

example : [Announcement.toAll none (.sys (bytes "User1 has joined.")),
    .toAll none (.nick (bytes "User1") (bytes "Ada")),
    .toAll none (.sys (bytes "User1 has joined.")),
    .toAll none (.sys (bytes "Ada has left."))].foldl heard [] = [bytes "User1"] := by decide

/-! ### The notices one by one -/

theorem heard_joined {except : Option ConnId} :
    heard names (.toAll except (.sys (name ++ bytes " has joined."))) = name :: names := by
  have h : (name ++ bytes " has joined.").dropSuffix? (bytes " has joined.") = some name := by
    rw [List.dropSuffix?_eq_some_iff]
    exact ⟨_, rfl, BEq.rfl⟩
  rw [heard, h]

/-- Nobody is taken to have joined who has left. -/
theorem heard_left {except : Option ConnId} :
    heard names (.toAll except (.sys (name ++ bytes " has left."))) = names.erase name := by
  have hl : (name ++ bytes " has left.").dropSuffix? (bytes " has left.") = some name := by
    rw [List.dropSuffix?_eq_some_iff]
    exact ⟨_, rfl, BEq.rfl⟩
  have hj : (name ++ bytes " has left.").dropSuffix? (bytes " has joined.") = none := by
    rw [Option.eq_none_iff_forall_ne_some]
    intro n hn
    obtain ⟨w, he, hw⟩ := List.dropSuffix?_eq_some_iff.mp hn
    obtain rfl := eq_of_beq hw
    have h := List.suffix_of_suffix_length_le (List.suffix_append name (bytes " has left."))
      (he ▸ List.suffix_append n _) (by decide)
    exact absurd h (by decide)
  rw [heard, hj, hl]

/-- What one client is told alone is no notice. -/
theorem foldl_heard_to {ks : List ConnId} {line : ServerLine} :
    (ks.map fun i => Announcement.to i line).foldl heard names = names := by
  induction ks with
  | nil => rfl
  | cons k ks ih => exact ih

/-! ### The names in use -/

/-- One knows the names in use, each once. -/
def Room.Known (R : Room max) (names : List Bytes) : Prop :=
  names.Nodup ∧ ∀ name, name ∈ names ↔ R.Uses name

/-- The names in use when a member has another record. -/
theorem Room.uses_update (h : R'.member = Function.update R.member c (some r)) :
    R'.Uses name ↔ name = r.nickname ∨ ∃ i q, i ≠ c ∧ R.member i = some q ∧ q.nickname = name := by
  unfold Room.Uses
  rw [h]
  constructor
  · rintro ⟨i, q, hq, hn⟩
    by_cases hi : i = c
    · subst hi
      rw [Function.update_self] at hq
      exact .inl (by rw [← hn, Option.some.inj hq])
    · rw [Function.update_of_ne hi] at hq
      exact .inr ⟨i, q, hi, hq, hn⟩
  · rintro (rfl | ⟨i, q, hi, hq, hn⟩)
    · exact ⟨c, r, Function.update_self .., rfl⟩
    · exact ⟨i, q, by rw [Function.update_of_ne hi, hq], hn⟩

/-- The names the others use are all but the member's own. -/
theorem Room.others_use (hr : R.member c = some r) :
    (∃ i q, i ≠ c ∧ R.member i = some q ∧ q.nickname = name) ↔ R.Uses name ∧ name ≠ r.nickname := by
  constructor
  · rintro ⟨i, q, hi, hq, rfl⟩
    exact ⟨⟨i, q, hq, rfl⟩, fun he => hi (R.unique _ _ _ _ hq hr he)⟩
  · rintro ⟨⟨i, q, hq, rfl⟩, hne⟩
    refine ⟨i, q, ?_, hq, rfl⟩
    rintro rfl
    rw [hr] at hq
    exact hne (by rw [Option.some.inj hq])

/-- **An event of a room**, as its notices say it. -/
theorem room_heard (h : Room.Step R e out R') (hk : R.Known names) :
    R'.Known (out.foldl heard names) := by
  obtain ⟨hd, hu⟩ := hk
  cases h with
  | enter hc hpos hn hleast h =>
    rw [List.foldl_cons, List.foldl_cons, List.foldl_nil, heard_joined]
    refine ⟨List.nodup_cons.mpr ⟨fun hm => hn ((hu _).mp hm), hd⟩, fun name => ?_⟩
    rw [Room.uses_update h, List.mem_cons]
    refine or_congr_right ((hu name).trans ⟨?_, ?_⟩)
    · rintro ⟨i, q, hq, hname⟩
      refine ⟨i, q, ?_, hq, hname⟩
      rintro rfl
      rw [hc] at hq
      cases hq
    · rintro ⟨i, q, -, hq, hname⟩
      exact ⟨i, q, hq, hname⟩
  | turnAway => exact ⟨hd, hu⟩
  | @welcome c r _ hr h =>
    refine ⟨hd, fun name => (hu name).trans ?_⟩
    rw [Room.uses_update h, Room.others_use hr]
    by_cases hname : name = r.nickname
    · exact iff_of_true ⟨c, r, hr, hname.symm⟩ (.inl hname)
    · simp [hname]
  | say => exact ⟨hd, hu⟩
  | @rename c new r _ hr hv hfree h =>
    have hnew : new ∈ names → new = r.nickname := by
      intro hm
      obtain ⟨i, q, hq, hname⟩ := (hu new).mp hm
      obtain rfl := hfree i q hq hname
      rw [hr] at hq
      rw [← hname, Option.some.inj hq]
    refine ⟨?_, fun name => ?_⟩
    · refine List.Nodup.map_on ?_ hd
      intro x hx y hy he
      split_ifs at he with h1 h2 h2
      · rw [h1, h2]
      · exact absurd (hnew (he ▸ hy) ▸ he.symm) h2
      · exact absurd (hnew (he ▸ hx) ▸ he) h1
      · exact he
    · rw [Room.uses_update h, Room.others_use hr]
      simp only [List.foldl_cons, List.foldl_nil, heard, List.mem_map]
      constructor
      · rintro ⟨x, hx, rfl⟩
        split_ifs with hxo
        · exact .inl rfl
        · exact .inr ⟨(hu x).mp hx, hxo⟩
      · rintro (rfl | ⟨huse, hne⟩)
        · exact ⟨r.nickname, (hu _).mpr ⟨c, r, hr, rfl⟩, if_pos rfl⟩
        · exact ⟨name, (hu _).mpr huse, if_neg hne⟩
  | taken => exact ⟨hd, hu⟩
  | tell => exact ⟨hd, hu⟩
  | notFound => exact ⟨hd, hu⟩
  | self => exact ⟨hd, hu⟩
  | list => exact ⟨hd, hu⟩
  | @leave c r _ hr h =>
    rw [List.foldl_cons, List.foldl_nil, heard_left]
    refine ⟨hd.erase _, fun name => ?_⟩
    rw [hd.mem_erase_iff, hu, and_comm, ← Room.others_use hr]
    unfold Room.Uses
    rw [h]
    constructor
    · rintro ⟨i, q, hi, hq, hname⟩
      exact ⟨i, q, by rw [Function.update_of_ne hi, hq], hname⟩
    · rintro ⟨i, q, hq, hname⟩
      by_cases hi : i = c
      · subst hi
        rw [Function.update_self] at hq
        cases hq
      · rw [Function.update_of_ne hi] at hq
        exact ⟨i, q, hi, hq, hname⟩
  | gather =>
    rw [foldl_heard_to]
    exact ⟨hd, hu⟩

namespace Server

variable {config : LoadedConfig} {s₀ s : Server}

/-- **The notices tell the names.** From any state that is reached to any later one: who
knows which names are in use, and reads the notices between, knows the names in use then. -/
theorem notices_tell_names {past : List (Server × Action)} (h0 : Run step (init config) s₀)
    (h : Path step s₀ past s) (hnames : names.Nodup)
    (hknown : ∀ name, name ∈ names ↔ name ∈ s₀.nicknames) :
    let now := (((past.filterMap event?).map Prod.snd).flatten).foldl heard names
    now.Nodup ∧ ∀ name, name ∈ now ↔ name ∈ s.nicknames := by
  have hi : InOrderWith config s₀ := ⟨inv_of_run h0, named_of_run h0, config_of_run h0⟩
  obtain ⟨hs, htr⟩ := room_trace hi h
  have hk := htr.invariant (fun l R => R.Known (((l.map Prod.snd).flatten).foldl heard names))
    ⟨hnames, fun name => (hknown name).trans (uses_iff hi).symm⟩ fun l R b R' hR hb => by
      rw [List.map_append, List.flatten_append, List.foldl_append]
      simpa using room_heard hb hR
  exact ⟨hk.1, fun name => (hk.2 name).trans (uses_iff hs)⟩

set_option maxRecDepth 8000 in
theorem notices_of_roomVisit :
    ∃ s, Run step (init .default) s ∧
      [bytes "Ada", bytes "User1"].Nodup ∧
      ∀ name, name ∈ [bytes "Ada", bytes "User1"] ↔ name ∈ s.nicknames := by
  have h : (execAllIn step (fun _ _ => True) (init .default) roomVisit).isSome = true := by decide
  obtain ⟨s, hs⟩ := Option.isSome_iff_exists.mp h
  have hp := pathIn_of_execAllIn hs
  have hnow := notices_tell_names (.refl (init .default)) hp List.nodup_nil fun name => Iff.rfl
  have he : (((trace step (init .default) roomVisit).filterMap event?).map
      Prod.snd).flatten.foldl heard [] = [bytes "Ada", bytes "User1"] := by decide
  rw [he] at hnow
  exact ⟨s, hp.runIn, hnow⟩

end Server

end ThreadLink.Backend
