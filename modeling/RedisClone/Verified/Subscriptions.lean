import Mathlib.Data.Finset.Card
import Mathlib.Data.Finset.Dedup
import RedisClone.Lib.Runs
import RedisClone.Lib.Slots
import RedisClone.Verified.Lists

/-! # The channels of a client

SUBSCRIBE fills the slots of `channel_subed` from the first one on, and every `strcmp` over them relies on that.
UNSUBSCRIBE clears the slot of its channel where it finds it and counts one slot less: the slots stay filled
only where this was the last one.  `subscriptions_refine` is about the requests that keep to this: then the slots
are, each channel once, the set of channels that a client is subscribed to.
-/

namespace RedisClone

open Exec CString

variable {D : Type}

/-- The slots of the client hold the channels of the set, each once. -/
def Client.SubscribedTo (client : Client) (subscribed : Finset Bytes) : Prop :=
  client.channelSubed.length = maxChannels ∧
    ∃ channels : List Bytes, Slots.Fills client.channelSubed client.channelCount channels ∧ channels.Nodup ∧
      channels.toFinset = subscribed

/-- The confirmations of these channels, one after the other. -/
def confirmations (subscribed : Finset Bytes) : List Bytes → Bytes
  | [] => []
  | channel :: channels =>
    subscribeText channel (insert channel subscribed).card ++ confirmations (insert channel subscribed) channels

section Slots

variable {client : Client} {subscribed : Finset Bytes} {channel : Bytes} {channels : List Bytes} {w t : World D}

theorem subscribedTo_empty (allocated : client.channelSubed.length = maxChannels) (none : client.channelCount = 0) :
    client.SubscribedTo ∅ :=
  ⟨allocated, [], none ▸ .empty _, List.nodup_nil, rfl⟩

/-- `channel_count` is the number of channels. -/
theorem Client.SubscribedTo.card (holds : client.SubscribedTo subscribed) :
    client.channelCount = subscribed.card := by
  obtain ⟨_, channels, fills, nodup, rfl⟩ := holds
  rw [List.toFinset_card_of_nodup nodup, fills.length]

/-- Over slots that are filled every `strcmp` is defined. -/
theorem alreadySubed_filled (channel : Bytes) (channels : List Bytes) (w : World D) :
    alreadySubed channel (channels.map some) w = .ok (decide (channel ∈ channels), w) := by
  induction channels with
  | nil => simp [alreadySubed]
  | cons subed channels inductionHypothesis =>
    rw [List.map_cons, alreadySubed]
    by_cases same : subed = channel
    · simp [same]
    · simp [same, inductionHypothesis, Ne.symm same]

theorem Client.SubscribedTo.alreadySubed (holds : client.SubscribedTo subscribed) (channel : Bytes) (w : World D) :
    RedisClone.alreadySubed channel (client.channelSubed.take client.channelCount) w =
      .ok (decide (channel ∈ subscribed), w) := by
  obtain ⟨_, channels, fills, _, rfl⟩ := holds
  rw [fills.filled, alreadySubed_filled]
  simp

/-! ## SUBSCRIBE -/

/-- The next slot takes a channel that the client is not subscribed to. -/
theorem Client.SubscribedTo.push (holds : client.SubscribedTo subscribed) (isNew : channel ∉ subscribed)
    (room : client.channelCount < maxChannels) :
    Client.SubscribedTo
      { client with
        channelSubed := client.channelSubed.set client.channelCount (some channel)
        channelCount := client.channelCount + 1 }
      (insert channel subscribed) := by
  obtain ⟨allocated, channels, fills, nodup, rfl⟩ := holds
  refine ⟨by simpa using allocated, channels ++ [channel], fills.push (by omega), ?_, ?_⟩
  · rw [List.nodup_append_comm]
    exact List.nodup_cons.mpr ⟨by simpa using isNew, nodup⟩
  · ext other
    simp

theorem print_ok {size : Nat} {buffer printed : Buffer} {text : Bytes}
    (run : buffer.print size text w = .ok (printed, t)) : printed.offset = buffer.offset ∧ t = w := by
  unfold Buffer.print at run
  split at run
  · simp [fault] at run
  · simp only [pure_run, Except.ok.injEq, Prod.mk.injEq] at run
    exact ⟨by rw [← run.1], run.2.symm⟩

theorem subscribeAll_ok {ptr : ClientPtr} {msg printed : Buffer} (found : w.heap ptr = some client)
    (holds : client.SubscribedTo subscribed) (few : (subscribed ∪ channels.toFinset).card ≤ maxChannels)
    (fits : channels ≠ [] → msg.offset + (confirmations subscribed channels.dropLast).length < 1024)
    (run : subscribeAll ptr channels msg w = .ok (printed, t)) :
    ∃ client', t.heap ptr = some client' ∧ client'.SubscribedTo (subscribed ∪ channels.toFinset) := by
  induction channels generalizing client subscribed msg w with
  | nil =>
    obtain ⟨_, rfl⟩ : msg = printed ∧ w = t := by simpa [subscribeAll] using run
    exact ⟨client, found, by simpa using holds⟩
  | cons channel channels inductionHypothesis =>
    have union : subscribed ∪ (channel :: channels).toFinset = insert channel subscribed ∪ channels.toFinset := by
      ext other
      simp
    -- where another channel follows, the confirmation of this one has room
    have fitsHere (more : channels ≠ []) : msg.offset + (subscribeText channel (insert channel subscribed).card).length +
        (confirmations (insert channel subscribed) channels.dropLast).length < 1024 := by
      have all := fits (List.cons_ne_nil _ _)
      rw [List.dropLast_cons_of_ne_nil more, confirmations, List.length_append] at all
      omega
    unfold subscribeAll at run
    rw [bind_of_ok (loadClient_found found)] at run
    split at run
    · -- all slots are taken, by the channels of this request too
      rename_i full
      obtain ⟨_, rfl⟩ : msg = printed ∧ w = t := by simpa using run
      have same : subscribed = subscribed ∪ (channel :: channels).toFinset :=
        Finset.eq_of_subset_of_card_le Finset.subset_union_left (by rw [← holds.card]; omega)
      exact ⟨client, found, same ▸ holds⟩
    rename_i room
    rw [bind_of_ok (holds.alreadySubed channel w)] at run
    obtain ⟨_, updated, updates, afterUpdate⟩ := bind_eq_ok.mp run
    have counts : (if decide (channel ∈ subscribed) = true then client.channelCount else client.channelCount + 1) =
        (insert channel subscribed).card := by
      rw [holds.card]
      split
      · rename_i isOld
        rw [Finset.insert_eq_of_mem (of_decide_eq_true isOld)]
      · rename_i isNew
        rw [Finset.card_insert_of_notMem (by simpa using isNew)]
    have took : ∃ client', updated.heap ptr = some client' ∧ client'.SubscribedTo (insert channel subscribed) := by
      by_cases isOld : channel ∈ subscribed
      · obtain rfl : w = updated := by simpa [onlyIf, isOld] using updates
        exact ⟨client, found, by rwa [Finset.insert_eq_of_mem isOld]⟩
      · simp only [onlyIf, isOld, decide_false, Bool.not_false, if_true, Bool.false_eq_true, if_false,
          updateClient_found found, Except.ok.injEq, Prod.mk.injEq, true_and] at updates
        exact ⟨_, by rw [← updates]; simp [World.setClient], holds.push isOld (by omega)⟩
    obtain ⟨client', found', holds'⟩ := took
    rw [counts] at afterUpdate
    obtain ⟨next, w', prints, afterPrint⟩ := bind_eq_ok.mp afterUpdate
    obtain ⟨sameOffset, rfl⟩ := print_ok prints
    rw [union] at few ⊢
    rw [sameOffset] at afterPrint
    split at afterPrint
    · exact inductionHypothesis found' holds' few fitsHere afterPrint
    · -- the array is full, and so this was the last channel
      rename_i full
      have isLast : channels = [] := by
        by_contra more
        have := fitsHere more
        omega
      subst isLast
      obtain ⟨_, rfl⟩ : next = printed ∧ w' = t := by simpa using afterPrint
      exact ⟨client', found', by simpa using holds'⟩

/-- SUBSCRIBE subscribes its client to its channels. -/
theorem handleSubscribe_ok {req : RespRequest} {ptr : ClientPtr} (found : w.heap ptr = some client)
    (holds : client.SubscribedTo subscribed) (few : (subscribed ∪ req.args.toFinset).card ≤ maxChannels)
    (fits : (confirmations subscribed req.args.dropLast).length < 1024)
    (run : handleSubscribe req ptr w = .ok ((), t)) :
    ∃ client', t.heap ptr = some client' ∧ client'.SubscribedTo (subscribed ∪ req.args.toFinset) := by
  unfold handleSubscribe at run
  rw [bind_of_ok (updateClient_found found)] at run
  obtain ⟨msg, w', subscribes, afterAll⟩ := bind_eq_ok.mp run
  have found' : (w.setClient ptr { client with isSubscribed := true }).heap ptr =
      some { client with isSubscribed := true } := by
    simp [World.setClient]
  obtain ⟨client', stored, holds'⟩ := subscribeAll_ok found' (show Client.SubscribedTo _ subscribed from holds) few
    (fun _ => by simpa using fits) subscribes
  rw [bind_of_ok (loadClient_found stored)] at afterAll
  unfold Buffer.sendPrefix at afterAll
  split at afterAll
  · simp [fault] at afterAll
  · rw [send_run afterAll]
    exact ⟨client', stored, holds'⟩

/-! ## UNSUBSCRIBE -/

/-- The last filled slot holds this channel. -/
def Client.LastSubscribed (client : Client) (channel : Bytes) : Prop :=
  ∃ before, client.channelCount = before + 1 ∧ client.channelSubed[before]? = some (some channel)

/-- A slot in use holds a channel of the set. -/
theorem Client.SubscribedTo.slot {i : Nat} (holds : client.SubscribedTo subscribed)
    (inside : i < client.channelCount) : ∃ subed ∈ subscribed, client.channelSubed[i]? = some (some subed) := by
  obtain ⟨_, channels, fills, _, rfl⟩ := holds
  have inChannels : i < channels.length := by rw [fills.length]; exact inside
  refine ⟨channels[i], by simp, ?_⟩
  rw [fills.getElem? inside, List.getElem?_eq_getElem inChannels]
  rfl

/-- No two slots in use hold the same channel. -/
theorem Client.SubscribedTo.slot_unique {i j : Nat} (holds : client.SubscribedTo subscribed)
    (inside : i < client.channelCount) (inside' : j < client.channelCount)
    (isChannel : client.channelSubed[i]? = some (some channel))
    (isChannel' : client.channelSubed[j]? = some (some channel)) : i = j := by
  obtain ⟨_, channels, fills, nodup, rfl⟩ := holds
  rw [fills.getElem? inside] at isChannel
  rw [fills.getElem? inside', ← isChannel] at isChannel'
  have same : channels[i]? = channels[j]? := (Option.map_injective (Option.some_injective _) isChannel').symm
  exact (List.getElem?_inj (by rw [fills.length]; exact inside) nodup).mp same

/-- The last slot is cleared. -/
theorem Client.SubscribedTo.pop {last : Nat} (holds : client.SubscribedTo subscribed)
    (counts : client.channelCount = last + 1) (isLast : client.channelSubed[last]? = some (some channel)) :
    Client.SubscribedTo { client with channelSubed := client.channelSubed.set last none, channelCount := last }
      (subscribed.erase channel) := by
  obtain ⟨allocated, channels, fills, nodup, rfl⟩ := holds
  rw [counts] at fills
  have length := fills.length
  have isEnd : channels.getLast? = some channel := by
    rw [fills.getElem? (by omega)] at isLast
    rw [List.getLast?_eq_getElem?, length]
    simpa using isLast
  obtain ⟨front, rfl⟩ := List.getLast?_eq_some_iff.mp isEnd
  obtain ⟨nodupFront, _, apart⟩ := List.nodup_append.mp nodup
  refine ⟨by simpa using allocated, front, fills.pop, nodupFront, ?_⟩
  ext other
  simp only [List.mem_toFinset, Finset.mem_erase, List.mem_append, List.mem_singleton]
  constructor
  · intro inFront
    exact ⟨apart other inFront channel (List.mem_singleton_self channel), .inl inFront⟩
  · rintro ⟨differs, inFront | isChannel⟩
    · exact inFront
    · exact absurd isChannel differs

theorem unsubscribeFrom_absent {ptr : ClientPtr} {fuel i : Nat} (found : w.heap ptr = some client)
    (holds : client.SubscribedTo subscribed) (absent : channel ∉ subscribed)
    (run : unsubscribeFrom ptr channel fuel i w = .ok ((), t)) : t = w := by
  induction fuel generalizing i with
  | zero => simpa [unsubscribeFrom, eq_comm] using run
  | succ fuel inductionHypothesis =>
    unfold unsubscribeFrom at run
    rw [bind_of_ok (loadClient_found found)] at run
    split at run
    · rename_i inside
      obtain ⟨subed, isSubed, inSlot⟩ := holds.slot inside
      have differs : subed ≠ channel := fun same => absent (same ▸ isSubed)
      simp only [inSlot, onlyIf, if_neg differs, pure_bind] at run
      exact inductionHypothesis run
    · simpa [eq_comm] using run

theorem unsubscribeFrom_done {ptr : ClientPtr} {fuel i : Nat} (found : w.heap ptr = some client)
    (done : client.channelCount ≤ i) : unsubscribeFrom ptr channel fuel i w = .ok ((), w) := by
  cases fuel with
  | zero => rfl
  | succ fuel =>
    unfold unsubscribeFrom
    rw [bind_of_ok (loadClient_found found), if_neg (by omega)]
    rfl

/-- The loop passes the slots before the last one, clears that one, and ends. -/
theorem unsubscribeFrom_last {ptr : ClientPtr} {fuel i last : Nat} (found : w.heap ptr = some client)
    (holds : client.SubscribedTo subscribed) (counts : client.channelCount = last + 1)
    (isLast : client.channelSubed[last]? = some (some channel)) (before : i ≤ last) (enough : last < fuel + i)
    (run : unsubscribeFrom ptr channel fuel i w = .ok ((), t)) :
    t = w.setClient ptr { client with channelSubed := client.channelSubed.set last none, channelCount := last } := by
  induction fuel generalizing i with
  | zero => omega
  | succ fuel inductionHypothesis =>
    unfold unsubscribeFrom at run
    rw [bind_of_ok (loadClient_found found), if_pos (by omega)] at run
    obtain ⟨subed, _, inSlot⟩ := holds.slot (show i < client.channelCount by omega)
    simp only [inSlot] at run
    by_cases same : i = last
    · subst same
      obtain rfl : subed = channel := by simpa [inSlot] using isLast
      simp only [onlyIf, if_true] at run
      rw [bind_of_ok (updateClient_found found)] at run
      simp only [counts, Nat.add_sub_cancel] at run
      generalize isCleared : ({ client with channelSubed := _, channelCount := i } : Client) = cleared at run ⊢
      have stored : (w.setClient ptr cleared).heap ptr = some cleared := by simp [World.setClient]
      rw [unsubscribeFrom_done stored (by simp [← isCleared])] at run
      simpa [eq_comm] using run
    · have differs : subed ≠ channel := fun isChannel =>
        same (holds.slot_unique (by omega) (by omega) inSlot (isChannel ▸ isLast))
      simp only [onlyIf, if_neg differs, pure_bind] at run
      exact inductionHypothesis (by omega) (by omega) run

theorem handleUnsubscribe_ok {req : RespRequest} {ptr : ClientPtr} (found : w.heap ptr = some client)
    (holds : client.SubscribedTo subscribed) (isChannel : req.args[0]? = some channel)
    (last : channel ∈ subscribed → client.LastSubscribed channel)
    (run : handleUnsubscribe req ptr w = .ok ((), t)) :
    ∃ client', t.heap ptr = some client' ∧ client'.SubscribedTo (subscribed.erase channel) := by
  have enough : client.channelCount ≤ maxChannels := by
    obtain ⟨allocated, channels, fills, _, _⟩ := holds
    have taken := congrArg List.length fills.filled
    rw [List.length_take, List.length_map, fills.length] at taken
    omega
  unfold handleUnsubscribe at run
  split at run
  · have := lt_argc isChannel
    omega
  · rw [bind_of_ok (arg_ok.mpr ⟨isChannel, rfl⟩)] at run
    obtain ⟨_, w', unsubscribes, replies⟩ := bind_eq_ok.mp run
    have cleared : ∃ client', w'.heap ptr = some client' ∧ client'.SubscribedTo (subscribed.erase channel) := by
      by_cases isSubscribed : channel ∈ subscribed
      · obtain ⟨before, counts, isLast⟩ := last isSubscribed
        rw [unsubscribeFrom_last found holds counts isLast (Nat.zero_le before) (by omega) unsubscribes]
        exact ⟨_, by simp [World.setClient], holds.pop counts isLast⟩
      · rw [unsubscribeFrom_absent found holds isSubscribed unsubscribes, Finset.erase_eq_of_notMem isSubscribed]
        exact ⟨client, found, holds⟩
    obtain ⟨client', stored, holds'⟩ := cleared
    rw [bind_of_ok (loadClient_found stored)] at replies
    rw [send_run replies]
    exact ⟨client', stored, holds'⟩

theorem handleUnsubscribe_short {req : RespRequest} {ptr : ClientPtr} (isNone : req.args[0]? = none)
    (run : handleUnsubscribe req ptr w = .ok ((), t)) : t = w := by
  have few : req.argc < 1 := by
    have supplied := req.supplied
    have := List.getElem?_eq_none_iff.mp isNone
    omega
  unfold handleUnsubscribe at run
  rw [if_pos few] at run
  simpa [eq_comm] using run

/-! ## Whatever the slots hold -/

/-- The client has other channels. -/
def Client.withChannels (client : Client) (channelSubed : List (Option Bytes)) (channelCount : Nat) : Client :=
  { client with channelSubed, channelCount }

theorem setClient_self {ptr : ClientPtr} (found : w.heap ptr = some client) : w.setClient ptr client = w := by
  have same : Function.update w.heap ptr (some client) = w.heap := by
    rw [← found]
    exact Function.update_eq_self ptr w.heap
  unfold World.setClient
  rw [same]

theorem setClient_setClient {ptr : ClientPtr} (first second : Client) :
    (w.setClient ptr first).setClient ptr second = w.setClient ptr second := by
  simp [World.setClient]

theorem alreadySubed_run {slots : List (Option Bytes)} {already : Bool}
    (run : alreadySubed channel slots w = .ok (already, t)) : t = w := by
  induction slots with
  | nil => simpa [alreadySubed, eq_comm] using (Prod.mk.inj (Except.ok.inj run)).2
  | cons slot slots inductionHypothesis =>
    cases slot with
    | none => simp [alreadySubed, fault] at run
    | some subed =>
      unfold alreadySubed at run
      split at run
      · exact (Prod.mk.inj (Except.ok.inj run)).2.symm
      · exact inductionHypothesis run

/-- SUBSCRIBE never takes a channel away, and a channel that is asked for is there or was the first to be refused. -/
theorem subscribeAll_changes {ptr : ClientPtr} {msg printed : Buffer} (found : w.heap ptr = some client)
    (run : subscribeAll ptr channels msg w = .ok (printed, t)) :
    ∃ channelSubed channelCount, t = w.setClient ptr (client.withChannels channelSubed channelCount) ∧
      client.channelCount ≤ channelCount ∧ (channels ≠ [] → 0 < channelCount) := by
  induction channels generalizing client msg w with
  | nil =>
    obtain ⟨_, rfl⟩ : msg = printed ∧ w = t := by simpa [subscribeAll] using run
    exact ⟨client.channelSubed, client.channelCount, (setClient_self found).symm, le_rfl, by simp⟩
  | cons channel channels inductionHypothesis =>
    unfold subscribeAll at run
    rw [bind_of_ok (loadClient_found found)] at run
    split at run
    · rename_i full
      obtain ⟨_, rfl⟩ : msg = printed ∧ w = t := by simpa using run
      refine ⟨client.channelSubed, client.channelCount, (setClient_self found).symm, le_rfl, fun _ => ?_⟩
      unfold maxChannels at full
      omega
    rename_i room
    obtain ⟨already, _, looks, afterLook⟩ := bind_eq_ok.mp run
    obtain rfl : w = _ := (alreadySubed_run looks).symm
    obtain ⟨text, isText⟩ : ∃ text, subscribeText channel
        (if already = true then client.channelCount else client.channelCount + 1) = text := ⟨_, rfl⟩
    rw [isText] at afterLook
    obtain ⟨_, updated, updates, afterUpdate⟩ := bind_eq_ok.mp afterLook
    -- the client after this channel, and a count that is positive
    have took : ∃ channelSubed channelCount,
        updated = w.setClient ptr (client.withChannels channelSubed channelCount) ∧
          client.channelCount ≤ channelCount ∧ 0 < channelCount := by
      cases already with
      | true =>
        obtain rfl : w = updated := by simpa [onlyIf] using updates
        refine ⟨client.channelSubed, client.channelCount, (setClient_self found).symm, le_rfl, ?_⟩
        -- over no slot at all the channel is not found
        apply Nat.pos_of_ne_zero
        intro none
        simp [none, alreadySubed] at looks
      | false =>
        simp only [onlyIf, Bool.not_false, if_true, Bool.false_eq_true, if_false, updateClient_found found,
          Except.ok.injEq, Prod.mk.injEq, true_and] at updates
        exact ⟨_, _, updates.symm, Nat.le_succ _, Nat.succ_pos _⟩
    obtain ⟨channelSubed, channelCount, rfl, grows, positive⟩ := took
    obtain ⟨next, _, prints, afterPrint⟩ := bind_eq_ok.mp afterUpdate
    obtain rfl := (print_ok prints).2
    have stored : (w.setClient ptr (client.withChannels channelSubed channelCount)).heap ptr =
        some (client.withChannels channelSubed channelCount) := by simp [World.setClient]
    split at afterPrint
    · obtain ⟨channelSubed', channelCount', same, grows', _⟩ := inductionHypothesis stored afterPrint
      have stillGrows : channelCount ≤ channelCount' := grows'
      rw [setClient_setClient] at same
      exact ⟨channelSubed', channelCount', same, grows.trans stillGrows, fun _ => positive.trans_le stillGrows⟩
    · obtain ⟨_, rfl⟩ : _ ∧ _ = t := by simpa using afterPrint
      exact ⟨channelSubed, channelCount, rfl, grows, fun _ => positive⟩

theorem handleSubscribe_changes {req : RespRequest} {ptr : ClientPtr} (found : w.heap ptr = some client)
    (run : handleSubscribe req ptr w = .ok ((), t)) :
    ∃ channelSubed channelCount text,
      t = (w.setClient ptr { client.withChannels channelSubed channelCount with isSubscribed := true }).emit
        client.fd text ∧
      client.channelCount ≤ channelCount ∧ (req.args ≠ [] → 0 < channelCount) := by
  unfold handleSubscribe at run
  rw [bind_of_ok (updateClient_found found)] at run
  obtain ⟨msg, w', subscribes, afterAll⟩ := bind_eq_ok.mp run
  have found' : (w.setClient ptr { client with isSubscribed := true }).heap ptr =
      some { client with isSubscribed := true } := by
    simp [World.setClient]
  obtain ⟨channelSubed, channelCount, rfl, grows, positive⟩ := subscribeAll_changes found' subscribes
  rw [setClient_setClient] at afterAll
  have stored (stored : Client) : (w.setClient ptr stored).heap ptr = some stored := by simp [World.setClient]
  rw [bind_of_ok (loadClient_found (stored _))] at afterAll
  unfold Buffer.sendPrefix at afterAll
  split at afterAll
  · simp [fault] at afterAll
  · exact ⟨channelSubed, channelCount, _, send_run afterAll, grows, positive⟩

/-- UNSUBSCRIBE takes the last channel of a client away only from the first slot. -/
theorem unsubscribeFrom_changes {ptr : ClientPtr} {fuel i : Nat} (found : w.heap ptr = some client)
    (run : unsubscribeFrom ptr channel fuel i w = .ok ((), t)) :
    ∃ channelSubed channelCount, t = w.setClient ptr (client.withChannels channelSubed channelCount) ∧
      (client.channelCount = 0 → channelCount = 0) ∧
      (0 < client.channelCount →
        ¬ (i = 0 ∧ client.channelCount = 1 ∧ client.channelSubed[0]? = some (some channel)) →
        0 < channelCount) := by
  induction fuel generalizing i client w with
  | zero =>
    obtain rfl : w = t := by simpa [unsubscribeFrom] using run
    exact ⟨client.channelSubed, client.channelCount, (setClient_self found).symm, id, fun positive _ => positive⟩
  | succ fuel inductionHypothesis =>
    unfold unsubscribeFrom at run
    rw [bind_of_ok (loadClient_found found)] at run
    split at run
    · rename_i inside
      cases inSlot : client.channelSubed[i]? with
      | none => simp [inSlot, fault] at run
      | some slot =>
        cases slot with
        | none => simp [inSlot, fault] at run
        | some subed =>
          simp only [inSlot] at run
          obtain ⟨_, updated, updates, rest⟩ := bind_eq_ok.mp run
          by_cases same : subed = channel
          · simp only [onlyIf, same, if_true, updateClient_found found, Except.ok.injEq, Prod.mk.injEq,
              true_and] at updates
            have stored : updated.heap ptr =
                some (client.withChannels (client.channelSubed.set i none) (client.channelCount - 1)) := by
              rw [← updates]
              simp [World.setClient, Client.withChannels]
            obtain ⟨channelSubed, channelCount, isNext, empty, positive⟩ := inductionHypothesis stored rest
            rw [← updates, setClient_setClient] at isNext
            refine ⟨channelSubed, channelCount, isNext, fun none => by omega, fun _ notLast => ?_⟩
            -- a match in a later slot leaves a channel before it
            apply positive
            · have notOne : client.channelCount ≠ 1 := by
                intro isOne
                obtain rfl : i = 0 := by omega
                exact notLast ⟨rfl, isOne, same ▸ inSlot⟩
              simp only [Client.withChannels]
              omega
            · rintro ⟨isZero, _⟩
              omega
          · simp only [onlyIf, same, if_false, pure_run, Except.ok.injEq, Prod.mk.injEq, true_and] at updates
            obtain ⟨channelSubed, channelCount, isNext, empty, positive⟩ :=
              inductionHypothesis (updates ▸ found) rest
            refine ⟨channelSubed, channelCount, updates ▸ isNext, empty, fun isPositive _ => ?_⟩
            exact positive isPositive fun atStart => by omega
    · obtain rfl : w = t := by simpa using run
      exact ⟨client.channelSubed, client.channelCount, (setClient_self found).symm, id, fun positive _ => positive⟩

theorem handleUnsubscribe_changes {req : RespRequest} {ptr : ClientPtr} (found : w.heap ptr = some client)
    (run : handleUnsubscribe req ptr w = .ok ((), t)) :
    ∃ channelSubed channelCount, t.heap = Function.update w.heap ptr
        (some (client.withChannels channelSubed channelCount)) ∧
      t.clients = w.clients ∧ t.activeFds = w.activeFds ∧ t.defaultHasNopass = w.defaultHasNopass ∧
      t.defaultPassword = w.defaultPassword ∧
      (client.channelCount = 0 → channelCount = 0) ∧
      (0 < client.channelCount →
        ¬ (client.channelCount = 1 ∧ ∃ channel ∈ req.args[0]?, client.channelSubed[0]? = some (some channel)) →
        0 < channelCount) := by
  unfold handleUnsubscribe at run
  split at run
  · obtain rfl : w = t := by simpa using run
    refine ⟨client.channelSubed, client.channelCount, ?_, rfl, rfl, rfl, rfl, id, fun positive _ => positive⟩
    exact (congrArg World.heap (setClient_self found)).symm
  · obtain ⟨channel, _, isArg, afterArg⟩ := bind_eq_ok.mp run
    obtain ⟨isChannel, rfl⟩ := arg_ok.mp isArg
    obtain ⟨_, w', unsubscribes, replies⟩ := bind_eq_ok.mp afterArg
    obtain ⟨channelSubed, channelCount, same, empty, positive⟩ := unsubscribeFrom_changes found unsubscribes
    have stored : w'.heap ptr = some (client.withChannels channelSubed channelCount) := by
      rw [same]
      simp [World.setClient]
    rw [bind_of_ok (loadClient_found stored)] at replies
    rw [send_run replies, same]
    refine ⟨channelSubed, channelCount, rfl, rfl, rfl, rfl, rfl, empty, fun isPositive notLast => ?_⟩
    exact positive isPositive fun isLast => notLast ⟨isLast.2.1, channel, isChannel, isLast.2.2⟩

end Slots

/-! ## Runs of requests -/

/-- The state, and the set of channels that the client asked for. -/
structure Listener (D : Type) where
  world : World D
  subscribed : Finset Bytes

inductive SubscriptionCall where
  | subscribe (req : RespRequest)
  | unsubscribe (req : RespRequest)

/-- The rest of the state may change between two requests of the client. -/
def SameChannels (ptr : ClientPtr) (w start : World D) : Prop :=
  ∀ client, w.heap ptr = some client → ∃ client', start.heap ptr = some client' ∧
    client'.channelSubed = client.channelSubed ∧ client'.channelCount = client.channelCount

/-- A request of the client ends.  SUBSCRIBE asks for all its channels; UNSUBSCRIBE is about its first argument. -/
def SubscriptionStep (ptr : ClientPtr) (s : Listener D) (call : SubscriptionCall) (t : Listener D) : Prop :=
  ∃ start : World D, SameChannels ptr s.world start ∧
    match call with
    | .subscribe req =>
      handleSubscribe req ptr start = .ok ((), t.world) ∧ t.subscribed = s.subscribed ∪ req.args.toFinset
    | .unsubscribe req =>
      handleUnsubscribe req ptr start = .ok ((), t.world) ∧
        t.subscribed = (req.args[0]?).elim s.subscribed s.subscribed.erase

/-- SUBSCRIBE names channels among these, and the confirmations before its last channel fit into the array of
`handle_subscribe`; the channel of UNSUBSCRIBE is in the last slot, if it is in one. -/
def KeepsSlots (among : Finset Bytes) (ptr : ClientPtr) (s : Listener D) : SubscriptionCall → Prop
  | .subscribe req =>
    req.args.toFinset ⊆ among ∧ (confirmations s.subscribed req.args.dropLast).length < 1024
  | .unsubscribe req =>
    ∀ channel ∈ req.args[0]?, channel ∈ s.subscribed →
      ∃ client, s.world.heap ptr = some client ∧ client.LastSubscribed channel

/-- The client is subscribed to what it asked for, which is among these channels. -/
def Subscribes (among : Finset Bytes) (ptr : ClientPtr) (s : Listener D) : Prop :=
  s.subscribed ⊆ among ∧ ∃ client, s.world.heap ptr = some client ∧ client.SubscribedTo s.subscribed

section Runs

variable {among : Finset Bytes} {ptr : ClientPtr} {s t : Listener D}

theorem subscribes_step (few : among.card ≤ maxChannels) (subscribes : Subscribes among ptr s) {call : SubscriptionCall}
    (keeps : KeepsSlots among ptr s call) (step : SubscriptionStep ptr s call t) : Subscribes among ptr t := by
  obtain ⟨inside, client, found, holds⟩ := subscribes
  obtain ⟨start, same, runs⟩ := step
  obtain ⟨client', found', sameSlots, sameCount⟩ := same client found
  have holds' : client'.SubscribedTo s.subscribed := by
    rwa [Client.SubscribedTo, sameSlots, sameCount]
  cases call with
  | subscribe req =>
    obtain ⟨run, subscribed⟩ := runs
    have union : s.subscribed ∪ req.args.toFinset ⊆ among := Finset.union_subset inside keeps.1
    have taken := handleSubscribe_ok found' holds' ((Finset.card_le_card union).trans few) keeps.2 run
    exact ⟨subscribed ▸ union, subscribed ▸ taken⟩
  | unsubscribe req =>
    obtain ⟨run, subscribed⟩ := runs
    cases isChannel : req.args[0]? with
    | none =>
      rw [isChannel, Option.elim_none] at subscribed
      refine ⟨subscribed ▸ inside, client', ?_, subscribed ▸ holds'⟩
      rwa [handleUnsubscribe_short isChannel run]
    | some channel =>
      rw [isChannel, Option.elim_some] at subscribed
      have last (isSubscribed : channel ∈ s.subscribed) : client'.LastSubscribed channel := by
        obtain ⟨other, foundOther, isLast⟩ := keeps channel isChannel isSubscribed
        obtain rfl := Option.some.inj (found.symm.trans foundOther)
        rwa [Client.LastSubscribed, sameSlots, sameCount]
      have cleared := handleUnsubscribe_ok found' holds' isChannel last run
      exact ⟨subscribed ▸ (Finset.erase_subset channel _).trans inside, subscribed ▸ cleared⟩

/-- In every run of SUBSCRIBE and UNSUBSCRIBE requests of a client that starts without channels, over at most 64
channels, in which every UNSUBSCRIBE is about the last channel in the slots or about none, and the confirmations
of every SUBSCRIBE fit: in every state the slots in use hold the channels that the client asked for, each once,
and none of them is NULL. -/
theorem subscriptions_refine (few : among.card ≤ maxChannels) {client : Client} (found : s.world.heap ptr = some client)
    (allocated : client.channelSubed.length = maxChannels) (none : client.channelCount = 0) (nothing : s.subscribed = ∅)
    (run : Run (SubscriptionStep ptr) (KeepsSlots among ptr) s t) :
    ∃ client', t.world.heap ptr = some client' ∧ client'.SubscribedTo t.subscribed := by
  have atStart : Subscribes among ptr s :=
    ⟨nothing ▸ Finset.empty_subset among, client, found, nothing ▸ subscribedTo_empty allocated none⟩
  exact (run.invariant (fun _ _ _ subscribes keeps step => subscribes_step few subscribes keeps step) atStart).2

/-- A client in the first slot, which has descriptor 5. -/
def oneClient : World Int :=
  { (blankWorld Int).setClient 0 { fd := 5 } with clients := fun slot => if slot = firstSlot then some 0 else none }

def subscribeRequest : RespRequest := requestOf [lit "SUBSCRIBE", lit "a", lit "b"]

def unsubscribeRequest (channel : String) : RespRequest := requestOf [lit "UNSUBSCRIBE", lit channel]

/-- The slots in use. -/
def slotsInUse (w : World Int) : List (Option Bytes) :=
  ((w.heap 0).map fun client => client.channelSubed.take client.channelCount).getD []

theorem subscriptions_refine_last : ∃ t : Listener Int, t.subscribed = {lit "a"} ∧
    ∃ client, t.world.heap 0 = some client ∧ client.SubscribedTo t.subscribed := by
  have ends : endsIn (handleSubscribe subscribeRequest 0) oneClient (fun t =>
      ((t.heap 0).any fun client => client.channelCount = 2 ∧ client.channelSubed[1]? = some (some (lit "b"))) &&
      endsIn (handleUnsubscribe (unsubscribeRequest "b") 0) t fun _ => true) = true := by
    decide +kernel
  obtain ⟨t, subscribes, checked⟩ := exists_ok_of_endsIn ends
  simp only [Bool.and_eq_true] at checked
  obtain ⟨client, found, last⟩ := (Option.any_eq_true _ _).mp checked.1
  obtain ⟨u, unsubscribes, _⟩ := exists_ok_of_endsIn checked.2
  have atRest (w : World Int) : SameChannels 0 w w := fun client found => ⟨client, found, rfl, rfl⟩
  let start : Listener Int := ⟨oneClient, ∅⟩
  let both : Listener Int := ⟨t, ∅ ∪ subscribeRequest.args.toFinset⟩
  let one : Listener Int := ⟨u, both.subscribed.erase (lit "b")⟩
  have first : SubscriptionStep 0 start (.subscribe subscribeRequest) both := ⟨oneClient, atRest _, subscribes, rfl⟩
  have second : SubscriptionStep 0 both (.unsubscribe (unsubscribeRequest "b")) one :=
    ⟨t, atRest t, unsubscribes, rfl⟩
  have keepsFirst : KeepsSlots {lit "a", lit "b"} 0 start (.subscribe subscribeRequest) :=
    ⟨by decide +kernel, by decide +kernel⟩
  have keepsSecond : KeepsSlots {lit "a", lit "b"} 0 both (.unsubscribe (unsubscribeRequest "b")) := by
    intro channel isChannel _
    obtain rfl : channel = lit "b" := (Option.some.inj (show some channel = some (lit "b") from isChannel.symm))
    exact ⟨client, found, 1, of_decide_eq_true last⟩
  have run : Run (SubscriptionStep 0) (KeepsSlots {lit "a", lit "b"} 0) start one :=
    (Run.single keepsFirst first).tail keepsSecond second
  have onlyA : ((∅ : Finset Bytes) ∪ subscribeRequest.args.toFinset).erase (lit "b") = {lit "a"} := by decide +kernel
  have connected : start.world.heap 0 = some { fd := 5 } := by simp [start, oneClient, World.setClient]
  exact ⟨one, onlyA, subscriptions_refine (by decide) connected (by decide) rfl rfl run⟩

/-- After UNSUBSCRIBE of the first of two channels the second one is not in a slot in use, the slot in use is
NULL, and a PUBLISH dereferences it. -/
theorem unsubscribe_first_holes : ∃ t : Listener Int,
    Run (SubscriptionStep 0) (fun _ _ => True) ⟨oneClient, ∅⟩ t ∧ t.subscribed = {lit "b"} ∧
    slotsInUse t.world = [none] ∧
    handlePublish (requestOf [lit "PUBLISH", lit "b", lit "hi"]) 6 t.world = .error .nullDeref ∧
    ∀ client, t.world.heap 0 = some client → ¬ client.SubscribedTo t.subscribed := by
  have ends : endsIn (handleSubscribe subscribeRequest 0) oneClient (fun t =>
      endsIn (handleUnsubscribe (unsubscribeRequest "a") 0) t fun u => decide (slotsInUse u = [none]) &&
        match handlePublish (requestOf [lit "PUBLISH", lit "b", lit "hi"]) 6 u with
        | .error f => decide (f = .nullDeref)
        | .ok _ => false) = true := by
    decide +kernel
  obtain ⟨t, subscribes, checked⟩ := exists_ok_of_endsIn ends
  obtain ⟨u, unsubscribes, holed⟩ := exists_ok_of_endsIn checked
  have atRest (w : World Int) : SameChannels 0 w w := fun client found => ⟨client, found, rfl, rfl⟩
  let start : Listener Int := ⟨oneClient, ∅⟩
  let both : Listener Int := ⟨t, ∅ ∪ subscribeRequest.args.toFinset⟩
  let one : Listener Int := ⟨u, both.subscribed.erase (lit "a")⟩
  have first : SubscriptionStep 0 start (.subscribe subscribeRequest) both := ⟨oneClient, atRest _, subscribes, rfl⟩
  have second : SubscriptionStep 0 both (.unsubscribe (unsubscribeRequest "a")) one :=
    ⟨t, atRest t, unsubscribes, rfl⟩
  simp only [Bool.and_eq_true, decide_eq_true_eq] at holed
  obtain ⟨inUse, publishes⟩ := holed
  have onlyB : ((∅ : Finset Bytes) ∪ subscribeRequest.args.toFinset).erase (lit "a") = {lit "b"} := by decide +kernel
  refine ⟨one, (Run.single trivial first).tail trivial second, onlyB, inUse, ?_, fun client found holds => ?_⟩
  · cases result : handlePublish (requestOf [lit "PUBLISH", lit "b", lit "hi"]) 6 u with
    | ok ended => simp [result] at publishes
    | error f => simpa [result] using publishes
  · -- a slot in use of a client that is subscribed is not NULL
    obtain ⟨_, channels, fills, _, _⟩ := holds
    have slots : slotsInUse u = channels.map some := by
      rw [slotsInUse, show u.heap 0 = some client from found]
      exact fills.filled
    rw [inUse] at slots
    cases channels with
    | nil => simp at slots
    | cons channel channels => simp at slots

end Runs

end RedisClone
