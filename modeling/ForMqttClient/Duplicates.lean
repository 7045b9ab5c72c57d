import ForMqttClient.TaskRuns

/-!
# Publishes dropped as duplicates

A broker may use a packet id again when it has received the PUBACK or PUBCOMP,
which the receive task sends before its `AffirmRxId`. What the broker knows is
read off the history; the publishes on their way from the broker to the hub
keep the order in which the broker sent them.
-/

namespace Duplicates

open MqttData TaskHub HubSteps Tasks System SystemSteps TaskRuns GuardedRuns PairFifo

/-- The packet that ends the exchange of a publish for the broker. -/
def final : QoSWithPacketId → Option Outgoing
  | .AtMostOnce => none
  | .AtLeastOnce packetId => some (.PubAck packetId)
  | .ExactlyOnce packetId => some (.PubComp packetId)

/-- What the broker knows of a packet id: the message under it that waits for
its PUBACK or PUBCOMP, and how many messages have been closed by one. -/
structure View where
  unacked : Option (QoSWithPacketId × Nat)
  closed : Nat
  deriving DecidableEq, Repr

def view (p : PacketId) : List Event → View
  | [] => ⟨none, 0⟩
  | .brokerSent _ (.Publish publish) message :: older =>
    if publish.qos.packetId = some p then
      { view p older with unacked := some (publish.qos, message) }
    else view p older
  | .brokerGot _ packet :: older =>
    match (view p older).unacked with
    | some (qos, _) =>
      if final qos = some packet then ⟨none, (view p older).closed + 1⟩ else view p older
    | none => view p older
  | _ :: older => view p older

/-- How many messages were closed when the broker sent this one first. -/
def firstSent (p : PacketId) (message : Nat) : List Event → Option Nat
  | [] => none
  | .brokerSent _ (.Publish publish) sent :: older =>
    (firstSent p message older).or
      (if publish.qos.packetId = some p ∧ sent = message then some (view p older).closed else none)
  | _ :: older => firstSent p message older

/-- The message that the hub accepted last under the id. -/
def accepted (p : PacketId) : List Event → Option Nat
  | [] => none
  | .rxAccepted _ publish message :: older =>
    if publish.qos.packetId = some p then some message else accepted p older
  | _ :: older => accepted p older

/-- There is one connection, and on it the broker uses a packet id for a new
message only when no message under it waits for its PUBACK or PUBCOMP. -/
def reusesClosed (w : World) : Action → Bool
  | .hub (.connect _) => w.networks.isEmpty
  | .broker _ (.send (.Publish publish) message) =>
    match publish.qos.packetId with
    | some p =>
      match (view p w.log).unacked with
      | some (qos, sent) => publish.qos == qos && message == sent
      | none => firstSent p message w.log == none
    | none => true
  | _ => true

/-- The broker has no part in the event. -/
def silent : Event → Bool
  | .brokerSent _ _ _ => false
  | .brokerGot _ _ => false
  | _ => true

section History

variable {p : PacketId} {message n : Nat} {events log : List Event}

theorem view_append (hsilent : ∀ event ∈ events, silent event = true) :
    view p (events ++ log) = view p log := by
  induction events with
  | nil => rfl
  | cons event events ih =>
    have tail := ih (fun e he => hsilent e (List.mem_cons_of_mem _ he))
    have head := hsilent event List.mem_cons_self
    cases event with
    | brokerSent _ _ _ => cases head
    | brokerGot _ _ => cases head
    | _ => exact tail

theorem firstSent_append (hsilent : ∀ event ∈ events, silent event = true) :
    firstSent p message (events ++ log) = firstSent p message log := by
  induction events with
  | nil => rfl
  | cons event events ih =>
    have tail := ih (fun e he => hsilent e (List.mem_cons_of_mem _ he))
    have head := hsilent event List.mem_cons_self
    cases event with
    | brokerSent _ _ _ => cases head
    | _ => exact tail

theorem firstSent_cons {event : Event} {c : Nat} (h : firstSent p message log = some c) :
    firstSent p message (event :: log) = some c := by
  cases event with
  | brokerSent _ packet _ =>
    cases packet with
    | Publish publish => rw [firstSent, h, Option.some_or]
    | _ => exact h
  | _ => exact h

/-- What the broker receives closes a message, or changes nothing. -/
theorem view_got (p : PacketId) (n : Nat) (log : List Event) (packet : Outgoing) :
    view p (.brokerGot n packet :: log) = view p log ∨
      view p (.brokerGot n packet :: log) = ⟨none, (view p log).closed + 1⟩ := by
  rw [view]
  split
  · split
    · exact .inr rfl
    · exact .inl rfl
  · exact .inl rfl

/-- Messages are closed one after the other, in the order of their first
sending. -/
structure Numbered (p : PacketId) (log : List Event) : Prop where
  current : ∀ qos message, (view p log).unacked = some (qos, message) →
    firstSent p message log = some (view p log).closed
  past : ∀ message c, firstSent p message log = some c → c ≤ (view p log).closed ∧
    (c = (view p log).closed → ∃ qos, (view p log).unacked = some (qos, message))
  single : ∀ message message' c, firstSent p message log = some c →
    firstSent p message' log = some c → message = message'

theorem Numbered.of_eq {log' : List Event} (h : Numbered p log)
    (hview : view p log' = view p log)
    (hfirst : ∀ message, firstSent p message log' = firstSent p message log) :
    Numbered p log' := by
  constructor
  · intro qos message
    rw [hview, hfirst]
    exact h.current qos message
  · intro message c
    rw [hview, hfirst]
    exact h.past message c
  · intro message message' c
    rw [hfirst, hfirst]
    exact h.single message message' c

theorem Numbered.got (h : Numbered p log) (packet : Outgoing) :
    Numbered p (.brokerGot n packet :: log) := by
  have hfirst : ∀ message, firstSent p message (.brokerGot n packet :: log) =
      firstSent p message log := fun _ => rfl
  rcases view_got p n log packet with hview | hview
  · exact h.of_eq hview hfirst
  · constructor
    · intro qos message hunacked
      rw [hview] at hunacked
      cases hunacked
    · intro message c hc
      rw [hview]
      have hle : c ≤ (view p log).closed := (h.past message c hc).1
      refine ⟨Nat.le_succ_of_le hle, ?_⟩
      intro heq
      simp only at heq
      omega
    · exact h.single

/-- A message that was never sent takes the next number. -/
theorem Numbered.fresh (h : Numbered p log) {log' : List Event} {qos : QoSWithPacketId}
    {sent : Nat} (hunacked : (view p log).unacked = none)
    (hview : view p log' = { view p log with unacked := some (qos, sent) })
    (hsent : firstSent p sent log' = some (view p log).closed)
    (hold : ∀ message, message ≠ sent → firstSent p message log' = firstSent p message log) :
    Numbered p log' := by
  -- no older message has the number of the new one
  have hless : ∀ message c, firstSent p message log = some c → c < (view p log).closed := by
    intro message c hc
    obtain ⟨hle, hlast⟩ := h.past message c hc
    refine Nat.lt_of_le_of_ne hle ?_
    intro heq
    obtain ⟨qos, hwaiting⟩ := hlast heq
    rw [hunacked] at hwaiting
    cases hwaiting
  constructor
  · intro qos message hnow
    rw [hview] at hnow ⊢
    cases hnow
    exact hsent
  · intro message c hc
    rw [hview]
    by_cases heq : message = sent
    · subst heq
      rw [hsent] at hc
      cases hc
      exact ⟨Nat.le_refl _, fun _ => ⟨_, rfl⟩⟩
    · rw [hold message heq] at hc
      have hlt := hless message c hc
      exact ⟨Nat.le_of_lt hlt, fun hc' => absurd hc' (Nat.ne_of_lt hlt)⟩
  · intro message message' c hc hc'
    by_cases heq : message = sent <;> by_cases heq' : message' = sent
    · rw [heq, heq']
    · rw [heq, hsent] at hc
      rw [hold message' heq'] at hc'
      cases hc
      exact absurd (hless message' _ hc') (Nat.lt_irrefl _)
    · rw [heq', hsent] at hc'
      rw [hold message heq] at hc
      cases hc'
      exact absurd (hless message _ hc) (Nat.lt_irrefl _)
    · rw [hold message heq] at hc
      rw [hold message' heq'] at hc'
      exact h.single message message' c hc hc'

/-- The broker sends the message that waits again, or a new one when none waits. -/
theorem Numbered.sent (h : Numbered p log) {publish : Publish} {sent : Nat}
    (hid : publish.qos.packetId = some p)
    (hok : match (view p log).unacked with
      | some (qos, waiting) => publish.qos = qos ∧ sent = waiting
      | none => firstSent p sent log = none) :
    Numbered p (.brokerSent n (.Publish publish) sent :: log) ∧
      firstSent p sent (.brokerSent n (.Publish publish) sent :: log) =
        some (view p log).closed := by
  have hview : view p (.brokerSent n (.Publish publish) sent :: log) =
      { view p log with unacked := some (publish.qos, sent) } := by
    rw [view, if_pos hid]
  have hfirst : ∀ message, firstSent p message (.brokerSent n (.Publish publish) sent :: log) =
      (firstSent p message log).or
        (if sent = message then some (view p log).closed else none) := by
    intro message
    rw [firstSent]
    simp only [hid, true_and]
  cases hunacked : (view p log).unacked with
  | some waiting =>
    obtain ⟨qos, message⟩ := waiting
    rw [hunacked] at hok
    obtain ⟨hqos, rfl⟩ := hok
    have hsent : firstSent p sent log = some (view p log).closed := h.current qos sent hunacked
    have hsame : ∀ message, firstSent p message (.brokerSent n (.Publish publish) sent :: log) =
        firstSent p message log := by
      intro message
      rw [hfirst]
      by_cases heq : sent = message
      · rw [← heq, hsent, Option.some_or]
      · rw [if_neg heq, Option.or_none]
    refine ⟨h.of_eq ?_ hsame, (hsame sent).trans hsent⟩
    rw [hview, hqos, ← hunacked]
  | none =>
    rw [hunacked] at hok
    have hsent : firstSent p sent (.brokerSent n (.Publish publish) sent :: log) =
        some (view p log).closed := by
      rw [hfirst, hok, if_pos rfl]
      rfl
    refine ⟨h.fresh hunacked hview hsent ?_, hsent⟩
    intro message hne
    rw [hfirst, if_neg (Ne.symm hne), Option.or_none]

theorem accepted_append
    (hnone : ∀ event ∈ events, ∀ i publish message, event ≠ .rxAccepted i publish message) :
    accepted p (events ++ log) = accepted p log := by
  induction events with
  | nil => rfl
  | cons event events ih =>
    have tail := ih (fun e he => hnone e (List.mem_cons_of_mem _ he))
    have head := hnone event List.mem_cons_self
    cases event with
    | rxAccepted i publish message => exact absurd rfl (head i publish message)
    | _ => exact tail

end History

/-! ## From the broker to the hub -/

/-- The message of a publish under `p` that the network task hands to the hub. -/
def heard (p : PacketId) (e : Envelope) : Option Nat :=
  match e.event with
  | .hubMsg (.RxPublish publish) => if publish.qos.packetId = some p then some e.message else none
  | _ => none

def carried (p : PacketId) (item : Packet × Nat) : Option Nat :=
  match item.1 with
  | .Publish publish => if publish.qos.packetId = some p then some item.2 else none
  | _ => none

def queued (p : PacketId) (bus : List Envelope) : List Nat :=
  (channel Envelope.channel (.network 0, .hub) bus).filterMap (heard p)

def stream (p : PacketId) (networks : List Network) : List Nat :=
  networks[0]?.elim [] (fun network => network.fromBroker.filterMap (carried p))

/-- The messages under `p` on their way to the hub, oldest first. -/
def inFlight (p : PacketId) (w : World) : List Nat := queued p w.bus ++ stream p w.networks

/-- The broker's sendings of a packet that is no publish under `p` do not show. -/
theorem view_unsent {p : PacketId} {packet : Packet} {sent n : Nat} {log : List Event}
    (hnone : carried p (packet, sent) = none) :
    view p (.brokerSent n packet sent :: log) = view p log ∧
      ∀ message, firstSent p message (.brokerSent n packet sent :: log) =
        firstSent p message log := by
  cases packet with
  | Publish publish =>
    have hid : publish.qos.packetId ≠ some p := by
      intro hid
      rw [show carried p (.Publish publish, sent) = some sent from if_pos hid] at hnone
      cases hnone
    constructor
    · rw [view, if_neg hid]
    · intro message
      rw [firstSent, if_neg (fun h => hid h.1), Option.or_none]
  | _ => exact ⟨rfl, fun _ => rfl⟩

theorem Numbered.send {p : PacketId} {packet : Packet} {sent n : Nat} {log : List Event}
    (h : Numbered p log)
    (hok : ∀ publish, packet = .Publish publish → publish.qos.packetId = some p →
      match (view p log).unacked with
      | some (qos, waiting) => publish.qos = qos ∧ sent = waiting
      | none => firstSent p sent log = none) :
    Numbered p (.brokerSent n packet sent :: log) ∧
      (view p (.brokerSent n packet sent :: log)).closed = (view p log).closed ∧
      ∀ message, carried p (packet, sent) = some message →
        firstSent p message (.brokerSent n packet sent :: log) = some (view p log).closed := by
  cases hcarried : carried p (packet, sent) with
  | none =>
    obtain ⟨hview, hfirst⟩ := @view_unsent p packet sent n log hcarried
    refine ⟨h.of_eq hview hfirst, congrArg View.closed hview, ?_⟩
    rintro message ⟨⟩
  | some carriedMessage =>
    cases packet with
    | Publish publish =>
      have hid : publish.qos.packetId = some p := by
        by_cases hid : publish.qos.packetId = some p
        · exact hid
        · rw [show carried p (.Publish publish, sent) = none from if_neg hid] at hcarried
          cases hcarried
      have hsame : sent = carriedMessage := by
        rw [show carried p (.Publish publish, sent) = some sent from if_pos hid] at hcarried
        exact Option.some.inj hcarried
      obtain ⟨hnumbered, hfirst⟩ := h.sent (n := n) hid (hok publish rfl hid)
      refine ⟨hnumbered, by rw [view, if_pos hid], ?_⟩
      rintro message hmessage
      rw [← Option.some.inj hmessage, ← hsame]
      exact hfirst
    | _ => cases hcarried

section Flight

variable {w w' : World} {action : Action} {p : PacketId}

theorem stream_set {network network' : Network} {n : Nat} (hget : w.networks[n]? = some network)
    (hsame : network'.fromBroker = network.fromBroker) :
    stream p (w.networks.set n network') = stream p w.networks := by
  cases n with
  | zero =>
    rw [stream, stream, List.getElem?_set_self (List.getElem?_eq_some_iff.mp hget).1, hget,
      Option.elim_some, Option.elim_some, hsame]
  | succ n => rw [stream, stream, List.getElem?_set_ne (Nat.succ_ne_zero n)]

/-- Only a read of the network task puts something on its channel to the hub. -/
theorem channel_still {e : Envelope} (h : Emission w action e)
    (hread : action ≠ .network 0 .read) : e.channel ≠ (.network 0, .hub) := by
  intro heq
  have hreceiver : e.receiver = .hub := congrArg Prod.snd heq
  cases h with
  | rxPublish hget hfrom =>
    cases heq
    exact hread rfl
  | mqtt => cases hreceiver
  | data => cases hreceiver
  | _ => cases heq

theorem queued_of_moved (h : Moved w action w') (hhub : ∀ a, action ≠ .hub a)
    (hread : action ≠ .network 0 .read) : queued p w'.bus = queued p w.bus := by
  rw [queued, queued, channel_of_moved h (fun e he => channel_still he hread) ?_]
  intro j htaking
  cases htaking
  exact hhub _ rfl

theorem queued_take {j : Nat} {sender receiver : Worker} {event : BusEvent} {message : Nat}
    {rest : List Envelope}
    (htake : take Envelope.channel w.bus j = some (⟨sender, receiver, event, message⟩, rest)) :
    queued p rest <:+ queued p w.bus := by
  by_cases hchannel : (sender, receiver) = (Worker.network 0, Worker.hub)
  · obtain ⟨rfl, rfl⟩ := Prod.mk.inj hchannel
    have head : channel Envelope.channel (.network 0, .hub) w.bus = _ := channel_take htake
    rw [queued, queued, head, List.filterMap_cons]
    split
    · exact List.suffix_rfl
    · exact List.suffix_cons _ _
  · have hsame : queued p w.bus = queued p rest :=
      congrArg (List.filterMap (heard p)) (channel_take_of_ne htake hchannel)
    exact hsame ▸ List.suffix_rfl

theorem queued_take_publish {j : Nat} {publish : Publish} {message : Nat} {rest : List Envelope}
    (htake : take Envelope.channel w.bus j =
      some (⟨.network 0, .hub, .hubMsg (.RxPublish publish), message⟩, rest))
    (hid : publish.qos.packetId = some p) : queued p w.bus = message :: queued p rest := by
  have hheard : heard p ⟨.network 0, .hub, .hubMsg (.RxPublish publish), message⟩ = some message :=
    if_pos hid
  exact (congrArg (List.filterMap (heard p)) (channel_take htake)).trans
    (List.filterMap_cons_some hheard)

end Flight

/-! ## The invariant -/

/-- What is to be said of a dropped publish: the dropped message is the one
that the hub accepted last exactly if no message had been closed in between
when the broker sent it first. -/
def Judged (p : PacketId) (message : Nat) (log : List Event) : Prop :=
  ∃ kept c c', accepted p log = some kept ∧ firstSent p kept log = some c ∧
    firstSent p message log = some c' ∧ (message = kept ↔ c' ≤ c)

def JudgedDrop (event : Event) (older : List Event) : Prop :=
  ∀ publish message p, event = .rxDup publish message → publish.qos.packetId = some p →
    Judged p message older

/-- The number of the message that the hub accepted last. -/
def mark (p : PacketId) (log : List Event) : Nat :=
  ((accepted p log).bind (fun message => firstSent p message log)).getD 0

structure Piped (w : World) : Prop where
  one : w.networks.length ≤ 1
  senders : ∀ e ∈ w.bus, ∀ publish, e.event = .hubMsg (.RxPublish publish) →
    e.sender = .network 0
  numbered : ∀ p, Numbered p w.log
  rising : ∀ p, Rising (fun message => firstSent p message w.log) (view p w.log).closed
    (mark p w.log) (inFlight p w)
  known : ∀ p message, accepted p w.log = some message →
    (firstSent p message w.log).isSome = true
  held : ∀ p, (w.hub.rxPublishId p).isSome = true → (accepted p w.log).isSome = true
  judged : Throughout JudgedDrop w.log

section Steps

variable {w w' : World} {action : Action}

theorem senders_of_moved (htrack : OnTrack w) (hI : Piped w) (h : Moved w action w') :
    ∀ e ∈ w'.bus, ∀ publish, e.event = .hubMsg (.RxPublish publish) → e.sender = .network 0 := by
  intro e he publish hevent
  rcases mem_bus_of_moved h he with hmem | hnew
  · exact hI.senders e hmem publish hevent
  · cases hnew with
    | @rxPublish n network _ _ rest hget hfrom =>
      have hlt := (List.getElem?_eq_some_iff.mp hget).1
      have hone := hI.one
      obtain rfl : n = 0 := by omega
      rfl
    | task hget hphase hprog =>
      cases hevent
      cases htrack.taskMsg hget hprog
    | _ => cases hevent

/-- A step in which the broker has no part and the hub accepts nothing. -/
theorem Piped.quiet (htrack : OnTrack w) (hI : Piped w) (h : Moved w action w') (hone : w'.networks.length ≤ 1)
    {events : List Event} (hlog : w'.log = events ++ w.log)
    (hsilent : ∀ event ∈ events, silent event = true)
    (hnone : ∀ event ∈ events, ∀ i publish message, event ≠ .rxAccepted i publish message)
    (hflight : ∀ p, inFlight p w' <:+ inFlight p w)
    (hids : ∀ p, (w'.hub.rxPublishId p).isSome = true → (w.hub.rxPublishId p).isSome = true)
    (hjudged : Throughout JudgedDrop w'.log) : Piped w' := by
  have hview : ∀ p, view p w'.log = view p w.log := by
    intro p
    rw [hlog]
    exact view_append hsilent
  have hfirst : ∀ p message, firstSent p message w'.log = firstSent p message w.log := by
    intro p message
    rw [hlog]
    exact firstSent_append hsilent
  have haccepted : ∀ p, accepted p w'.log = accepted p w.log := by
    intro p
    rw [hlog]
    exact accepted_append hnone
  constructor
  · exact hone
  · exact senders_of_moved htrack hI h
  · intro p
    exact (hI.numbered p).of_eq (hview p) (hfirst p)
  · intro p
    simp only [mark, hview, hfirst, haccepted]
    exact (hI.rising p).of_suffix (hflight p)
  · intro p message hlast
    rw [hfirst]
    rw [haccepted] at hlast
    exact hI.known p message hlast
  · intro p hheld
    rw [haccepted]
    exact hI.held p (hids p hheld)
  · exact hjudged

/-- What stands in the history about the sendings stays as it is. -/
theorem mark_cons (hI : Piped w) (p : PacketId) (event : Event)
    (hnone : ∀ i publish message, event ≠ .rxAccepted i publish message) :
    accepted p (event :: w.log) = accepted p w.log ∧
      mark p (event :: w.log) = mark p w.log := by
  have haccepted : accepted p (event :: w.log) = accepted p w.log := by
    cases event with
    | rxAccepted i publish message => exact absurd rfl (hnone i publish message)
    | _ => rfl
  refine ⟨haccepted, ?_⟩
  rw [mark, mark, haccepted]
  cases hlast : accepted p w.log with
  | none => rfl
  | some message =>
    obtain ⟨c, hc⟩ := Option.isSome_iff_exists.mp (hI.known p message hlast)
    rw [Option.bind_some, Option.bind_some, hc, firstSent_cons hc]

theorem judged_of_outside {events : List Event} (hI : Piped w)
    (hlog : w'.log = events ++ w.log) (houtside : ∀ event ∈ events, Outside event) :
    Throughout JudgedDrop w'.log := by
  rw [hlog]
  apply hI.judged.append
  rintro event hevent older publish message p rfl
  cases houtside _ hevent

theorem piped_of_got (htrack : OnTrack w) (hI : Piped w) {n : Nat} {network : Network}
    {packet : Outgoing} {rest : List Outgoing} (hget : w.networks[n]? = some network)
    (hto : network.toBroker = packet :: rest) :
    Piped ((w.record (.brokerGot n packet)).setNetwork n { network with toBroker := rest }) := by
  have hmoved := Moved.brokerRecv hget hto
  have hflight : ∀ p, inFlight p ((w.record (.brokerGot n packet)).setNetwork n
      { network with toBroker := rest }) = inFlight p w := by
    intro p
    exact congrArg (queued p w.bus ++ ·) (stream_set hget rfl)
  have hmark := fun p => mark_cons hI p (.brokerGot n packet) (by simp)
  constructor
  · exact (networks_length_of_moved hmoved (by simp)).symm ▸ hI.one
  · exact senders_of_moved htrack hI hmoved
  · intro p
    exact (hI.numbered p).got packet
  · intro p
    rw [hflight]
    have hrising := hI.rising p
    rw [← (hmark p).2] at hrising
    refine hrising.mono (fun _ _ h => h) ?_
    rcases view_got p n w.log packet with hview | hview
    · exact Nat.le_of_eq (congrArg View.closed hview).symm
    · have hclosed := congrArg View.closed hview
      simp only at hclosed
      have hlog : ((w.record (.brokerGot n packet)).setNetwork n
        { network with toBroker := rest }).log = .brokerGot n packet :: w.log := rfl
      rw [hlog]
      omega
  · exact hI.known
  · exact hI.held
  · refine ⟨?_, hI.judged⟩
    rintro _ _ _ ⟨⟩

theorem piped_of_sent (htrack : OnTrack w) (hI : Piped w) {n : Nat} {network : Network}
    {packet : Packet} {message : Nat} (hget : w.networks[n]? = some network)
    (hok : reusesClosed w (.broker n (.send packet message)) = true) :
    Piped ((w.record (.brokerSent n packet message)).setNetwork n
      { network with fromBroker := network.fromBroker ++ [(packet, message)] }) := by
  have hmoved : Moved w (.broker n (.send packet message)) _ := .brokerSend hget
  have hlt := (List.getElem?_eq_some_iff.mp hget).1
  have hone := hI.one
  obtain rfl : n = 0 := by omega
  have hflight : ∀ p, inFlight p ((w.record (.brokerSent 0 packet message)).setNetwork 0
      { network with fromBroker := network.fromBroker ++ [(packet, message)] }) =
        inFlight p w ++ (carried p (packet, message)).toList := by
    intro p
    have hstream : stream p (w.networks.set 0
        { network with fromBroker := network.fromBroker ++ [(packet, message)] }) =
          stream p w.networks ++ (carried p (packet, message)).toList := by
      rw [stream, stream, List.getElem?_set_self hlt, hget, Option.elim_some, Option.elim_some,
        List.filterMap_append]
      cases hcarried : carried p (packet, message) <;> simp [hcarried]
    exact (congrArg (queued p w.bus ++ ·) hstream).trans (List.append_assoc ..).symm
  have hmark := fun p => mark_cons hI p (.brokerSent 0 packet message) (by simp)
  have hsend := fun p => @Numbered.send p packet message 0 w.log (hI.numbered p) (by
    rintro publish rfl hid
    simp only [reusesClosed, hid] at hok
    split at hok
    · next qos waiting hunacked => simpa [hunacked] using hok
    · next hunacked => simpa [hunacked] using hok)
  constructor
  · exact (networks_length_of_moved hmoved (by simp)).symm ▸ hI.one
  · exact senders_of_moved htrack hI hmoved
  · intro p
    exact (hsend p).1
  · intro p
    rw [hflight]
    have hrising := hI.rising p
    rw [← (hmark p).2] at hrising
    have hgrown : Rising (fun m => firstSent p m (.brokerSent 0 packet message :: w.log))
        (view p (.brokerSent 0 packet message :: w.log)).closed
        (mark p (.brokerSent 0 packet message :: w.log)) (inFlight p w) :=
      hrising.mono (fun _ _ h => firstSent_cons h) (Nat.le_of_eq (hsend p).2.1.symm)
    cases hcarried : carried p (packet, message) with
    | none =>
      rw [Option.toList_none, List.append_nil]
      exact hgrown
    | some m =>
      refine hgrown.snoc ?_
      rw [(hsend p).2.1]
      exact (hsend p).2.2 m hcarried
  · intro p m hlast
    have hbefore : accepted p w.log = some m := hlast
    obtain ⟨c, hc⟩ := Option.isSome_iff_exists.mp (hI.known p m hbefore)
    have hafter : firstSent p m (.brokerSent 0 packet message :: w.log) = some c :=
      firstSent_cons hc
    exact Option.isSome_iff_exists.mpr ⟨c, hafter⟩
  · exact hI.held
  · refine ⟨?_, hI.judged⟩
    rintro _ _ _ ⟨⟩

theorem queued_append {p : PacketId} (bus new : List Envelope) :
    queued p (bus ++ new) = queued p bus ++ queued p new := by
  rw [queued, channel_append, List.filterMap_append, ← queued, ← queued]

/-- A read moves the oldest packet of the stream to the end of the hub's queue. -/
theorem flight_of_read {network : Network} {packet : Packet} {message : Nat}
    {rest : List (Packet × Nat)} (hget : w.networks[0]? = some network)
    (hfrom : network.fromBroker = (packet, message) :: rest) (p : PacketId) :
    inFlight p ((w.setNetwork 0 { network with fromBroker := rest }).dealPacket 0 packet message) =
      inFlight p w := by
  have hlt := (List.getElem?_eq_some_iff.mp hget).1
  have hstream : stream p w.networks = (carried p (packet, message)).toList ++
      stream p (w.networks.set 0 { network with fromBroker := rest }) := by
    rw [stream, stream, List.getElem?_set_self hlt, hget, Option.elim_some, Option.elim_some, hfrom]
    cases hcarried : carried p (packet, message) <;> simp [hcarried]
  have hother {new : List Envelope} (hnew : ∀ e ∈ new, e.channel ≠ (.network 0, .hub)) :
      queued p (w.bus ++ new) = queued p w.bus :=
    congrArg (List.filterMap (heard p)) (channel_append_of_ne w.bus hnew)
  rw [inFlight, inFlight, hstream, ← List.append_assoc]
  cases packet with
  | Publish publish =>
    have hqueued : queued p (w.bus ++
        [⟨.network 0, .hub, .hubMsg (.RxPublish publish), message⟩]) =
          queued p w.bus ++ (carried p (.Publish publish, message)).toList := by
      rw [queued_append]
      refine congrArg (queued p w.bus ++ ·) ?_
      cases hcarried : carried p (.Publish publish, message) with
      | none => exact List.filterMap_cons_none hcarried
      | some m => exact List.filterMap_cons_some hcarried
    exact congrArg (· ++ _) hqueued
  | ConnAck => exact congrArg (· ++ _) (List.append_nil _).symm
  | Ack ack =>
    refine congrArg (· ++ _) ((hother ?_).trans (List.append_nil _).symm)
    intro e he heq
    obtain ⟨receiver, hmem, rfl⟩ := List.mem_map.mp he
    obtain ⟨i, _, rfl⟩ := mem_subscribers_ack.mp hmem
    cases heq
  | PingResp =>
    refine congrArg (· ++ _) ((hother ?_).trans (List.append_nil _).symm)
    intro e he heq
    obtain ⟨receiver, hmem, rfl⟩ := List.mem_map.mp he
    obtain ⟨i, _, rfl⟩ := mem_subscribers_pingResp.mp hmem
    cases heq
  | Disconnect text =>
    refine congrArg (· ++ _) ((hother ?_).trans (List.append_nil _).symm)
    intro e he heq
    rw [List.mem_singleton.mp he] at heq
    cases heq

theorem flight_of_outside (hI : Piped w) (h : Moved w action w') (hhub : ∀ a, action ≠ .hub a)
    (hbroker : ∀ n a, action ≠ .broker n a) (p : PacketId) : inFlight p w' = inFlight p w := by
  by_cases hread : action = .network 0 .read
  · subst hread
    cases h with
    | network hget hmoved =>
      cases hmoved with
      | read hstate hfrom => exact flight_of_read hget hfrom p
  · rw [inFlight, inFlight, queued_of_moved h hhub hread]
    refine congrArg (queued p w.bus ++ ·) ?_
    cases h with
    | hub hmoved => exact absurd rfl (hhub _)
    | task hget hmoved => cases hmoved <;> rfl
    | ping hget hmoved => cases hmoved <;> rfl
    | @network n network a w' hget hmoved =>
      cases hmoved with
      | read hstate hfrom =>
        have hlt := (List.getElem?_eq_some_iff.mp hget).1
        have hone := hI.one
        obtain rfl : n = 0 := by omega
        exact absurd rfl hread
      | _ => exact stream_set hget rfl
    | brokerRecv hget hto => exact absurd rfl (hbroker _ _)
    | brokerSend hget => exact absurd rfl (hbroker _ _)
    | _ => rfl

theorem silent_of_outside (h : Moved w action w') (hhub : ∀ a, action ≠ .hub a)
    (hbroker : ∀ n a, action ≠ .broker n a) :
    ∃ events, w'.log = events ++ w.log ∧
      ∀ event ∈ events, Outside event ∧ silent event = true := by
  obtain ⟨events, hlog, houtside⟩ := log_outside h hhub
  refine ⟨events, hlog, fun event hevent => ⟨houtside event hevent, ?_⟩⟩
  have one (recorded : Event) (hsilent : silent recorded = true)
      (hlog' : w'.log = [recorded] ++ w.log) : silent event = true := by
    rw [List.append_cancel_right (hlog'.symm.trans hlog).symm, List.mem_singleton] at hevent
    rw [hevent]
    exact hsilent
  have none (hlog' : w'.log = [] ++ w.log) : silent event = true := by
    rw [List.append_cancel_right (hlog'.symm.trans hlog).symm] at hevent
    cases hevent
  cases h with
  | hub hmoved => exact absurd rfl (hhub _)
  | task hget hmoved =>
    cases hmoved with
    | acked hphase hprog htake hrel => exact one _ rfl rfl
    | txToUser hphase hprog => exact one _ rfl rfl
    | _ => exact none rfl
  | ping hget hmoved => cases hmoved <;> exact none rfl
  | network hget hmoved =>
    cases hmoved with
    | @read packet => cases packet <;> exact none rfl
    | _ => exact none rfl
  | brokerRecv hget hto => exact absurd rfl (hbroker _ _)
  | brokerSend hget => exact absurd rfl (hbroker _ _)
  | _ => exact none rfl

theorem piped_of_outside (htrack : OnTrack w) (hok : reusesClosed w action = true)
    (h : Moved w action w') (hhub : ∀ a, action ≠ .hub a) (hI : Piped w) : Piped w' := by
  by_cases hbroker : ∀ n a, action ≠ .broker n a
  · obtain ⟨events, hlog, hevents⟩ := silent_of_outside h hhub hbroker
    refine hI.quiet htrack h ((networks_length_of_moved h hhub).symm ▸ hI.one) hlog
      (fun event hevent => (hevents event hevent).2) ?_ ?_ ?_ ?_
    · rintro event hevent i publish message rfl
      cases (hevents _ hevent).1
    · intro p
      exact flight_of_outside hI h hhub hbroker p ▸ List.suffix_rfl
    · intro p
      rw [(hub_of_moved h hhub).1]
      exact id
    · exact judged_of_outside hI hlog (fun event hevent => (hevents event hevent).1)
  · cases h with
    | brokerRecv hget hto => exact piped_of_got htrack hI hget hto
    | brokerSend hget => exact piped_of_sent htrack hI hget hok
    | _ => exact absurd (by simp) hbroker

theorem Piped.accept (htrack : OnTrack w) (hI : Piped w) (h : Moved w action w')
    (hone : w'.networks.length ≤ 1) {events : List Event} (hlog : w'.log = events ++ w.log)
    (hsilent : ∀ event ∈ events, silent event = true) {packetId : PacketId} {message : Nat}
    (hnow : accepted packetId w'.log = some message)
    (hbefore : ∀ p, p ≠ packetId → accepted p w'.log = accepted p w.log)
    (hflight : ∀ p, inFlight p w' <:+ inFlight p w)
    (hhead : inFlight packetId w = message :: inFlight packetId w')
    (hids : w'.hub.rxPublishId = Function.update w.hub.rxPublishId packetId (some packetId))
    (hjudged : Throughout JudgedDrop w'.log) : Piped w' := by
  have hview : ∀ p, view p w'.log = view p w.log := by
    intro p
    rw [hlog]
    exact view_append hsilent
  have hfirst : ∀ p message, firstSent p message w'.log = firstSent p message w.log := by
    intro p message
    rw [hlog]
    exact firstSent_append hsilent
  have hrising := hI.rising packetId
  rw [hhead] at hrising
  obtain ⟨c, hc, _, htail⟩ := hrising
  constructor
  · exact hone
  · exact senders_of_moved htrack hI h
  · intro p
    exact (hI.numbered p).of_eq (hview p) (hfirst p)
  · intro p
    by_cases hp : p = packetId
    · subst hp
      simp only [mark, hview, hfirst, hnow, Option.bind_some, hc, Option.getD_some]
      exact htail
    · simp only [mark, hview, hfirst, hbefore p hp]
      exact (hI.rising p).of_suffix (hflight p)
  · intro p last hlast
    rw [hfirst]
    by_cases hp : p = packetId
    · subst hp
      rw [hnow] at hlast
      cases hlast
      exact Option.isSome_iff_exists.mpr ⟨c, hc⟩
    · rw [hbefore p hp] at hlast
      exact hI.known p last hlast
  · intro p hheld
    by_cases hp : p = packetId
    · subst hp
      rw [hnow]
      rfl
    · rw [hids, Function.update_of_ne hp] at hheld
      rw [hbefore p hp]
      exact hI.held p hheld
  · exact hjudged

/-- The judgement of a publish that the hub takes under an id that it holds. -/
theorem judged_of_flight (hI : Piped w) {p : PacketId} {message : Nat} {rest : List Nat}
    (hheld : (w.hub.rxPublishId p).isSome = true) (hhead : inFlight p w = message :: rest) :
    Judged p message w.log := by
  obtain ⟨kept, hkept⟩ := Option.isSome_iff_exists.mp (hI.held p hheld)
  obtain ⟨c, hc⟩ := Option.isSome_iff_exists.mp (hI.known p kept hkept)
  have hrising := hI.rising p
  rw [hhead] at hrising
  obtain ⟨c', hc', hle, _⟩ := hrising
  have hmark : mark p w.log = c := by rw [mark, hkept, Option.bind_some, hc, Option.getD_some]
  rw [hmark] at hle
  refine ⟨kept, c, c', hkept, hc, hc', ?_⟩
  constructor
  · rintro rfl
    exact Nat.le_of_eq (Option.some.inj (hc'.symm.trans hc))
  · intro hle'
    have heq : c' = c := Nat.le_antisymm hle' hle
    exact (hI.numbered p).single message kept c (heq ▸ hc') hc

theorem silent_of_inside {first message : Nat} {outputs : List Output} {event : Event}
    (h : Inside first message outputs event) : silent event = true := by
  cases h <;> rfl

theorem queued_of_takes {a : HubAction} {input : HubInput} {message : Nat} {taken : World}
    (htakes : Takes w a input message taken) (p : PacketId) :
    queued p taken.bus <:+ queued p w.bus := by
  cases htakes with
  | connecting htake => exact queued_take htake
  | command htake => exact queued_take htake
  | network htake => exact queued_take htake
  | clientData htake => exact queued_take htake
  | hubMsg htake => exact queued_take htake
  | _ => exact List.suffix_rfl

/-- The hub puts nothing in its own queue. -/
theorem queued_applyOutputs (w : World) (message : Nat) (outputs : List Output) (p : PacketId) :
    queued p (World.applyOutputs message w outputs).bus = queued p w.bus :=
  congrArg (List.filterMap (heard p)) (channel_applyOutputs rfl _ _ _)

theorem flight_of_takes {a : HubAction} {input : HubInput} {message : Nat} {taken : World}
    (htakes : Takes w a input message taken) (hub : Hub) (outputs : List Output) (p : PacketId)
    (hstream : stream p (World.applyOutputs message { taken with hub := hub } outputs).networks =
      stream p w.networks) :
    inFlight p (World.applyOutputs message { taken with hub := hub } outputs) <:+
      inFlight p w := by
  obtain ⟨older, holder⟩ := queued_of_takes htakes p
  have hbus : queued p (World.applyOutputs message { taken with hub := hub } outputs).bus =
      queued p taken.bus := queued_applyOutputs _ message outputs p
  refine ⟨older, ?_⟩
  rw [inFlight, inFlight, hstream, hbus, ← List.append_assoc, holder]

section Hub

variable {a : HubAction} {input : HubInput} {message : Nat} {taken : World} {hub : Hub}
variable {outputs : List Output}

/-- The hub takes no publish with an id. -/
theorem Piped.plain (htrack : OnTrack w) (hI : Piped w)
    (h : Moved w (.hub a) (World.applyOutputs message { taken with hub := hub } outputs))
    (htakes : Takes w a input message taken)
    (hone : (World.applyOutputs message { taken with hub := hub } outputs).networks.length ≤ 1)
    (hstream : ∀ p, stream p
      (World.applyOutputs message { taken with hub := hub } outputs).networks =
        stream p w.networks)
    (houtputs : ∀ publish, .rxAccepted publish ∉ outputs ∧ .rxDup publish ∉ outputs)
    (hids : ∀ p, (hub.rxPublishId p).isSome = true → (w.hub.rxPublishId p).isSome = true) :
    Piped (World.applyOutputs message { taken with hub := hub } outputs) := by
  obtain ⟨events, hlog, hinside⟩ := log_of_takes htakes hub outputs
  have hhub := (applyOutputs_grown { taken with hub := hub } message outputs).hub
  refine hI.quiet htrack h hone hlog (fun event hevent => silent_of_inside (hinside event hevent))
    ?_ (fun p => flight_of_takes htakes hub outputs p (hstream p)) (by rw [hhub]; exact hids) ?_
  · rintro event hevent i publish m rfl
    cases hinside _ hevent with
    | rxAccepted hmem => exact (houtputs publish).1 hmem
  · rw [hlog]
    apply hI.judged.append
    rintro event hevent older publish m p rfl
    cases hinside _ hevent with
    | rxDup hmem => exact absurd hmem (houtputs publish).2

theorem networks_of_takes (htakes : Takes w a input message taken) :
    taken.networks = w.networks := by
  cases htakes <;> rfl

/-- The only connection is started when there is none yet. -/
theorem piped_of_startNetwork (htrack : OnTrack w) (hI : Piped w) {seen : Nat}
    (hok : reusesClosed w (.hub (.connect seen)) = true)
    (h : Moved w (.hub (.connect seen))
      (World.applyOutputs message { taken with hub := hub } [.startNetwork]))
    (htakes : Takes w (.connect seen) input message taken)
    (hids : hub.rxPublishId = w.hub.rxPublishId) :
    Piped (World.applyOutputs message { taken with hub := hub } [.startNetwork]) := by
  have hempty : w.networks = [] := List.isEmpty_iff.mp hok
  have hstarted : (World.applyOutputs message { taken with hub := hub }
      [.startNetwork]).networks = [.init] :=
    congrArg (· ++ [Network.init]) ((networks_of_takes htakes).trans hempty)
  refine hI.plain htrack h htakes (by rw [hstarted]; exact Nat.le_refl 1) ?_ (by simp) ?_
  · intro p
    rw [hstarted, hempty]
    rfl
  · exact fun p => hids ▸ id

/-- A publish that the hub has already is judged where it is dropped. -/
theorem piped_of_rxDup (htrack : OnTrack w) (hI : Piped w) {j : Nat} {sender : Worker}
    {publish : Publish} {packetId : PacketId} {rest : List Envelope}
    (htake : PairFifo.take Envelope.channel w.bus j =
      some (⟨sender, .hub, .hubMsg (.RxPublish publish), message⟩, rest))
    (hid : publish.qos.packetId = some packetId)
    (hheld : (w.hub.rxPublishId packetId).isSome = true)
    (h : Moved w (.hub (.recv j)) (World.applyOutputs message
      { w with bus := rest, log := .hubTook sender (.RxPublish publish) :: w.log }
      [.rxDup publish])) :
    Piped (World.applyOutputs message
      { w with bus := rest, log := .hubTook sender (.RxPublish publish) :: w.log }
      [.rxDup publish]) := by
  obtain rfl : sender = .network 0 := hI.senders _ (mem_of_take htake) publish rfl
  have hhead := congrArg (· ++ stream packetId w.networks) (queued_take_publish htake hid)
  have htakes : Takes w (.recv j) (.hubMsg (.RxPublish publish)) message
      { w with bus := rest, log := .hubTook (.network 0) (.RxPublish publish) :: w.log } :=
    .hubMsg htake
  obtain ⟨events, hlog, hinside⟩ := log_of_takes htakes w.hub [.rxDup publish]
  refine hI.quiet htrack h hI.one hlog
    (fun event hevent => silent_of_inside (hinside event hevent)) ?_
    (fun p => flight_of_takes htakes w.hub [.rxDup publish] p rfl) (fun _ h => h) ?_
  · rintro event hevent i publish' m rfl
    cases hinside _ hevent with
    | rxAccepted hmem => simp at hmem
  · refine ⟨?_, ?_, hI.judged⟩
    · rintro publish' m p ⟨⟩ hid'
      obtain rfl : packetId = p := Option.some.inj (hid.symm.trans hid')
      exact judged_of_flight hI hheld hhead
    · rintro publish' m p ⟨⟩

/-- A publish under a free id is accepted. -/
theorem piped_of_rxAccept (htrack : OnTrack w) (hI : Piped w) {j : Nat} {sender : Worker}
    {publish : Publish} {packetId : PacketId} {spec : TaskSpec} {rest : List Envelope}
    (htake : PairFifo.take Envelope.channel w.bus j =
      some (⟨sender, .hub, .hubMsg (.RxPublish publish), message⟩, rest))
    (hid : publish.qos.packetId = some packetId)
    (hids : hub.rxPublishId = Function.update w.hub.rxPublishId packetId (some packetId))
    (h : Moved w (.hub (.recv j)) (World.applyOutputs message
      { w with bus := rest, log := .hubTook sender (.RxPublish publish) :: w.log, hub := hub }
      [.rxAccepted publish, .start spec])) :
    Piped (World.applyOutputs message
      { w with bus := rest, log := .hubTook sender (.RxPublish publish) :: w.log, hub := hub }
      [.rxAccepted publish, .start spec]) := by
  obtain rfl : sender = .network 0 := hI.senders _ (mem_of_take htake) publish rfl
  have hhead := congrArg (· ++ stream packetId w.networks) (queued_take_publish htake hid)
  have htakes : Takes w (.recv j) (.hubMsg (.RxPublish publish)) message
      { w with bus := rest, log := .hubTook (.network 0) (.RxPublish publish) :: w.log } :=
    .hubMsg htake
  obtain ⟨events, hlog, hinside⟩ := log_of_takes htakes hub [.rxAccepted publish, .start spec]
  refine hI.accept htrack h hI.one hlog
    (fun event hevent => silent_of_inside (hinside event hevent)) (if_pos hid) ?_
    (fun p => flight_of_takes htakes hub [.rxAccepted publish, .start spec] p rfl) hhead hids ?_
  · intro p hp
    exact if_neg (fun heq => hp (Option.some.inj (heq.symm.trans hid)))
  · refine ⟨?_, ?_, ?_, hI.judged⟩ <;> rintro publish' m p ⟨⟩

theorem piped_of_hub (htrack : OnTrack w) (hok : reusesClosed w (.hub a) = true)
    (h : HubMoved w a w') (hI : Piped w) : Piped w' := by
  have hmoved : Moved w (.hub a) w' := .hub h
  cases h with
  | @intro input message taken hub outputs htakes hmove =>
    have hone : taken.networks.length ≤ 1 := networks_of_takes htakes ▸ hI.one
    have hstream : ∀ p, stream p taken.networks = stream p w.networks := by
      intro p
      rw [networks_of_takes htakes]
    cases hmove with
    | startNetwork hat =>
      cases htakes with
      | connect hseen hcommands =>
        exact piped_of_startNetwork htrack hI hok hmoved (.connect hseen hcommands) rfl
    | @rxDup publish packetId hat hid hheld =>
      cases htakes with
      | hubMsg htake => exact piped_of_rxDup htrack hI htake hid hheld hmoved
    | @rxAccept publish packetId protocol spec hat hfree hspec =>
      have hid : publish.qos.packetId = some packetId := by
        rcases hspec with ⟨hqos, _⟩ | ⟨hqos, _⟩
        · rw [hqos]
          rfl
        · rw [hqos]
          rfl
      cases htakes with
      | hubMsg htake => exact piped_of_rxAccept htrack hI htake hid rfl hmoved
    | @affirmRxId packetId hat =>
      refine hI.plain htrack hmoved htakes hone hstream (by simp) ?_
      intro p hheld
      by_cases hp : p = packetId
      · subst hp
        simp at hheld
      · simpa [hp] using hheld
    | _ => exact hI.plain htrack hmoved htakes hone hstream (by simp) (fun _ h => h)

end Hub

end Steps

theorem piped_init (options : MqttOptions) (protocol : Protocol) :
    Piped (.init options protocol) where
  one := Nat.zero_le 1
  senders := fun _ h => absurd h List.not_mem_nil
  numbered := by
    intro p
    constructor
    · rintro qos message ⟨⟩
    · rintro message c ⟨⟩
    · rintro message message' c ⟨⟩
  rising := fun _ => Nat.le_refl 0
  known := fun _ _ h => nomatch h
  held := fun _ h => nomatch h
  judged := trivial

theorem reachable_piped {options : MqttOptions} {protocol : Protocol} {w : World}
    (h : Reachable World.step (fun w a => reusesClosed w a = true)
      (.init options protocol) w) : Piped w := by
  refine h.invariant (piped_init options protocol) ?_
  intro w action w' hr ih hok hstep
  have htrack := reachable_onTrack hr
  have hmoved := moved_of_step hstep
  rcases hub_or_not hmoved with ⟨a, rfl, hhub⟩ | notHub
  · exact piped_of_hub htrack hok hhub ih
  · exact piped_of_outside htrack hok hmoved notHub ih

/-- On one connection with a broker that uses an id again only after the
PUBACK or PUBCOMP: a publish that the hub drops is the message that it accepted
last under the id exactly if the broker had not yet closed that message when it
sent the dropped one first. -/
theorem drop_repeats_iff_unclosed {options : MqttOptions} {protocol : Protocol} {w : World}
    (h : Reachable World.step (fun w a => reusesClosed w a = true)
      (.init options protocol) w) :
    ∀ newer older publish message p, w.log = newer ++ .rxDup publish message :: older →
      publish.qos.packetId = some p →
      ∃ kept c c', accepted p older = some kept ∧ firstSent p kept older = some c ∧
        firstSent p message older = some c' ∧ (message = kept ↔ c' ≤ c) := by
  intro newer older publish message p hlog hid
  have hjudged := (reachable_piped h).judged
  rw [hlog] at hjudged
  exact hjudged.split publish message p rfl hid

/-- The PUBACK is on the wire before `AffirmRxId` is dispatched; the broker
uses the id again and the hub takes the new message for the old one. -/
theorem new_message_dropped :
    ∃ w, Reachable World.step (fun w a => reusesClosed w a = true) (.init ⟨60, true⟩ .V4) w ∧
      (accepted 3 w.log = some 1 ∧
        .rxDup (.new "b" (.AtLeastOnce 3) [] false .V4) 2 ∈ w.log) :=
  exists_of_guardedRun
    [.hub (.connect 0), .network 0 (.connected false), .hub (.connecting 0), .hub .load,
      .hub .resend,
      .broker 0 (.send (.Publish (.new "a" (.AtLeastOnce 3) [] false .V4)) 1),
      .network 0 .read, .hub (.recv 1), .task 0 .run, .network 0 (.take 1 none),
      .task 0 .receipt, .broker 0 .recv,
      .broker 0 (.send (.Publish (.new "b" (.AtLeastOnce 3) [] false .V4)) 2),
      .network 0 .read, .hub (.recv 1)]
    (by decide +kernel)

/-- The law where the broker sends a message again before it has the PUBACK. -/
theorem drop_repeats_iff_unclosed_of_retransmission :
    ∃ w, guardedRun World.step (fun w a => reusesClosed w a = true) (.init ⟨60, true⟩ .V4)
        [.hub (.connect 0), .network 0 (.connected false), .hub (.connecting 0), .hub .load,
          .hub .resend,
          .broker 0 (.send (.Publish (.new "a" (.AtLeastOnce 3) [] false .V4)) 1),
          .network 0 .read, .hub (.recv 1), .task 0 .run,
          .broker 0 (.send (.Publish ⟨.V4, true, .AtLeastOnce 3, false, "a", [], none⟩) 1),
          .network 0 .read, .hub (.recv 2)] = some w ∧
      ∀ newer older publish message p, w.log = newer ++ .rxDup publish message :: older →
        publish.qos.packetId = some p →
        ∃ kept c c', accepted p older = some kept ∧ firstSent p kept older = some c ∧
          firstSent p message older = some c' ∧ (message = kept ↔ c' ≤ c) :=
  end_of_guardedRun _ (by decide +kernel) (fun _ h => drop_repeats_iff_unclosed h)

end Duplicates
