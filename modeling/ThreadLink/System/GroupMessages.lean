import ThreadLink.Gateway.GroupMessages
import ThreadLink.System.Replicas

/-!
# What every browser shows of groups

`Gateway.GroupMessages` says what the browser of a session has of a group if the chat server tells
things in order. It does (`Follows.inOrder`).

## What is proved

* `group_is_shown` — the browser of any session that is ready shows all messages of the groups of
  its user, and none of other groups.
-/

namespace ThreadLink.System

open Text Runs Backend Gateway Frontend
open GatewayServer (OneAttempt)

namespace Network

variable {s : Network} {w : WsId} {g gatewayUrl : Units} {memberIds : List Units} {c : ChatState}

/-- **Every member has the whole conversation**: in a run in which each WebSocket has at most one
attempt at a time and does not close during it, no `connect` fails, and no id is drawn twice, a
browser whose session is ready and whose WebSocket is open shows of each group of its user all the
messages that are stored, each once: those that the last `ready` has brought in the order of their
timestamps and with the texts that SQLite gives back, then the others in the order in which they
have been stored and with the texts that were sent; so that all are in that order if the clock does
not go back, and as they are stored if no text has a U+0000 or an unpaired surrogate. Of other
groups it shows nothing. -/
theorem group_is_shown {env : Env} {gateway : GatewayConfig} {server : LoadedConfig}
    (hu : Function.Injective env.uuid)
    (h : RunIn step (OfGateway OneAttempt) (init env gateway server) s)
    (hr : (s.gateway.sessions w).readyAnnounced = true) (ho : (s.gateway.sessions w).ws = .opened)
    (hc : Browses (createInitialState gatewayUrl) ((s.gateway.sent w).map (·.message)) c)
    (hg : s.gateway.store.getGroup g = some memberIds) :
    let rows := s.gateway.store.messages.filter fun m => m.conversationId == g
    ((s.gateway.sessions w).id ∈ memberIds →
      ∃ l, shown c g = l.map recordOf ∧ Recalled rows l ∧
        (∃ rows', rows'.Perm rows ∧ List.Forall₂ ShownAs rows' l) ∧
        ((rows.Pairwise fun m m' => m.timestamp ≤ m'.timestamp) → List.Forall₂ ShownAs rows l) ∧
        ((∀ row ∈ rows, 0 ∉ row.text) → (∀ m ∈ l, isWellFormed m.text = true) →
          l.Perm rows ∧ ((rows.Pairwise fun m m' => m.timestamp ≤ m'.timestamp) → l = rows))) ∧
    ((s.gateway.sessions w).id ∉ memberIds → shown c g = []) := by
  intro rows
  obtain ⟨past, hp⟩ := (gateway_inOrder h).exists_path
  have ha := GatewayServer.abreast_of_path (fun _ _ => id) hu hp
  obtain ⟨⟨r, hrow, rfl, hk⟩, rfl⟩ := Store.getGroup_eq_some.mp hg
  have hl : ConversationKind.group.label <+: r.id := by
    have hf := (GatewayServer.confined_of_path hu hp).numbered.filed.label r hrow
    rwa [hk] at hf
  have hn : r.id ≠ Frontend.publicConversationId := by
    intro he
    rw [he] at hl
    exact GatewayServer.not_group_public hl
  have hshown : shown c r.id = (chats r.id (s.gateway.sent w)).map recordOf := by
    refine shown_of_browses hc (fun m hm => ?_) hn
    obtain ⟨m', hm', rfl⟩ := List.mem_map.mp hm
    exact ha.named w m' hm'
  have hcur := ha.current w hr ho r.id hl
  simp only [Members.mem_of]
  refine ⟨fun hm => ?_, fun hm => ?_⟩
  · rw [Store.groupMessages_of_mem hm] at hcur
    refine ⟨_, hshown, hcur, hcur.perm, hcur.inOrder, fun hrows hl => ⟨?_, fun hs => ?_⟩⟩
    · obtain ⟨rows', hperm, hall⟩ := hcur.perm
      have heq := eq_of_shownAs hall (fun row hrow => hrows row (hperm.subset hrow)) hl
      rwa [heq] at hperm
    · exact (eq_of_shownAs (hcur.inOrder hs) hrows hl).symm
  · rw [Store.groupMessages_of_not_mem hm] at hcur
    rw [hshown, hcur.eq_nil]
    rfl

/-- Two sessions are ready, the first makes a group of both, and the second says something. -/
def twoInGroup : List Action :=
  twoReady ++
    [.gateway (.message 0 70 (some (GatewayServer.groupMessage [List.replicate 6 1]))),
      .gateway (.message 1 70
        (some (GatewayServer.sendGroupMessage (units "group:" ++ List.replicate 7 1) "hi")))]

set_option maxRecDepth 8000 in
/-- The first shows it. -/
theorem shown_of_twoInGroup :
    ∃ s c, RunIn step (OfGateway OneAttempt) (init .unary {} .default) s ∧
      Browses (createInitialState []) ((s.gateway.sent 0).map (·.message)) c ∧
      ∃ m, shown c (units "group:" ++ List.replicate 7 1) = [recordOf m] ∧
        ShownAs ⟨List.replicate 8 1, units "group:" ++ List.replicate 7 1,
          some (List.replicate 6 1), some (units "bob"), units "hi", [8]⟩ m := by
  have h : (execAllIn step (OfGateway OneAttempt) (init .unary {} .default) twoInGroup).map
      (fun s => ((s.gateway.sessions 0).id,
        (s.gateway.sessions 0).readyAnnounced && (s.gateway.sessions 0).ws == .opened,
        s.gateway.store.getGroup (units "group:" ++ List.replicate 7 1),
        s.gateway.store.messages)) =
      some (List.replicate 3 1, true, some [List.replicate 3 1, List.replicate 6 1],
        [⟨List.replicate 8 1, units "group:" ++ List.replicate 7 1, some (List.replicate 6 1),
          some (units "bob"), units "hi", [8]⟩]) := by decide
  obtain ⟨s, hs, he⟩ := exists_runIn_of_execAllIn h
  simp only [Prod.mk.injEq, Bool.and_eq_true, beq_iff_eq] at he
  obtain ⟨hid, ⟨hr, ho⟩, hg, hm⟩ := he
  obtain ⟨c, hc⟩ := exists_replays (createInitialState []) ((s.gateway.sent 0).map (·.message))
  have hb := browses_of_replays hc
  refine ⟨s, c, hs, hb, ?_⟩
  obtain ⟨l, hl, -, -, hall, -⟩ := (group_is_shown Env.uuid_unary hs hr ho hb hg).1
    (by rw [hid]; exact List.mem_cons_self)
  rw [hm] at hall
  obtain ⟨m, l', hm', hnil, rfl⟩ :=
    List.forall₂_cons_left_iff.mp (hall (List.pairwise_singleton ..))
  obtain rfl := List.forall₂_nil_left_iff.mp hnil
  exact ⟨m, hl, hm'⟩

end Network

end ThreadLink.System
