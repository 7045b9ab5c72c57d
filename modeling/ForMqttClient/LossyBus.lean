import ForMqttClient.Inbound
import ForMqttClient.Losses

/-!
# A bus that loses events

The queues of the bus have finitely many places, and what finds none is dropped
without a word to anyone. Here the bus may drop any event at any moment, so what
is said holds for queues of every length; the user takes events out of a queue
like every other worker. What was dropped is kept as history.
-/

namespace LossyBus

open MqttData TaskHub HubSteps Tasks System SystemSteps TaskRuns GuardedRuns PairFifo
open Losses Inbound

structure Lossy where
  world : World
  /-- What the user has received, oldest first. -/
  got : List MqttEvent
  /-- History: what the bus has dropped, oldest first. -/
  lost : List Envelope

inductive LossyAction where
  | act (action : Action)
  | drop (k : Nat)
  | userRecv (j : Nat)
  deriving DecidableEq, Repr

def Lossy.init (options : MqttOptions) (protocol : Protocol) : Lossy where
  world := .init options protocol
  got := []
  lost := []

def Lossy.step (s : Lossy) : LossyAction → Option Lossy
  | .act action => (s.world.step action).map (fun world => { s with world := world })
  | .drop k =>
    match s.world.bus[k]? with
    | some envelope =>
      some { s with
        world := { s.world with bus := s.world.bus.eraseIdx k }
        lost := s.lost ++ [envelope] }
    | none => none
  | .userRecv j =>
    match s.world.receive .client j with
    | some (⟨_, _, .mqtt event, _⟩, world) =>
      some { s with world := world, got := s.got ++ [event] }
    | _ => none

/-- Every queue has `places` places: an event is dropped only where as many older ones
wait for the same worker. -/
def Overflows (places : Nat) (s : Lossy) : LossyAction → Prop
  | .drop k => ∃ envelope ∈ s.world.bus[k]?,
      places ≤ ((s.world.bus.take k).filter (·.receiver = envelope.receiver)).length
  | _ => True

instance (places : Nat) (s : Lossy) : (action : LossyAction) →
    Decidable (Overflows places s action)
  | .drop k =>
    match h : s.world.bus[k]? with
    | some envelope =>
      decidable_of_iff
        (places ≤ ((s.world.bus.take k).filter (·.receiver = envelope.receiver)).length)
        (by simp [Overflows, h])
    | none => isFalse (by simp [Overflows, h])
  | .act _ | .userRecv _ => inferInstanceAs (Decidable True)

/-! ## The rule -/

/-- An invariant of the client that a loss on the bus does not touch. -/
structure Resilient (I : World → Prop) : Prop where
  start : ∀ options protocol, I (.init options protocol)
  kept : ∀ w action w', I w → w.step action = some w' → I w'
  fewer : ∀ w bus, bus.Sublist w.bus → I w → I { w with bus := bus }

/-- What a step does to the client and its bus. -/
inductive LossyMoved (s : Lossy) : LossyAction → Lossy → Prop where
  | act {action : Action} {w' : World} (h : s.world.step action = some w') :
      LossyMoved s (.act action) { s with world := w' }
  | drop {k : Nat} {older newer : List Envelope} {envelope : Envelope}
      (hbus : s.world.bus = older ++ [envelope] ++ newer) :
      LossyMoved s (.drop k) { s with
        world := { s.world with bus := older ++ newer }, lost := s.lost ++ [envelope] }
  | userRecv {j message : Nat} {sender : Worker} {event : MqttEvent} {rest : List Envelope}
      (htake : PairFifo.take Envelope.channel s.world.bus j =
        some (⟨sender, .client, .mqtt event, message⟩, rest)) :
      LossyMoved s (.userRecv j)
        { s with world := { s.world with bus := rest }, got := s.got ++ [event] }

theorem lossyMoved_of_step {s s' : Lossy} {action : LossyAction} (h : s.step action = some s') :
    LossyMoved s action s' := by
  cases action with
  | act action =>
    obtain ⟨w', hstep, rfl⟩ := Option.map_eq_some_iff.mp h
    exact .act hstep
  | drop k =>
    simp only [Lossy.step] at h
    split at h
    · next envelope hget =>
      obtain rfl := Option.some.inj h
      obtain ⟨hk, hat⟩ := List.getElem?_eq_some_iff.mp hget
      have hbus : s.world.bus = s.world.bus.take k ++ [envelope] ++ s.world.bus.drop (k + 1) := by
        rw [List.append_assoc, List.singleton_append, ← hat, List.getElem_cons_drop,
          List.take_append_drop]
      rw [List.eraseIdx_eq_take_drop_succ]
      exact .drop hbus
    · cases h
  | userRecv j =>
    simp only [Lossy.step] at h
    split at h
    · next sender receiver event message world hreceive =>
      obtain rfl := Option.some.inj h
      obtain ⟨rest, htake, hreceiver, rfl⟩ := receive_spec hreceive
      cases hreceiver
      exact .userRecv htake
    · cases h

theorem Resilient.kept_of_step {I : World → Prop} (hI : Resilient I) {s s' : Lossy}
    {action : LossyAction} (held : I s.world) (h : s.step action = some s') : I s'.world := by
  cases lossyMoved_of_step h with
  | act hstep => exact hI.kept _ _ _ held hstep
  | drop hbus =>
    refine hI.fewer _ _ ?_ held
    rw [hbus]
    exact (List.sublist_append_left _ _).append (List.Sublist.refl _)
  | userRecv htake =>
    refine hI.fewer _ _ ?_ held
    obtain ⟨older, newer, hbus, rfl, _⟩ := PairFifo.take_split htake
    rw [hbus]
    exact (List.Sublist.refl older).append (List.sublist_cons_self _ newer)

/-- The client of a lossy bus keeps such an invariant. -/
theorem Resilient.reachable {I : World → Prop} (hI : Resilient I)
    {ok : Lossy → LossyAction → Prop} {options : MqttOptions} {protocol : Protocol} {s : Lossy}
    (h : Reachable Lossy.step ok (.init options protocol) s) : I s.world := by
  refine h.invariant (I := fun s => I s.world) (hI.start options protocol) ?_
  intro s action s' _ ih _ hstep
  exact hI.kept_of_step ih hstep

theorem resilient_passes : Resilient Passes where
  start := passes_init
  kept := fun _ _ _ hI hstep => passes_of_moved (moved_of_step hstep) hI
  fewer := fun _ _ hsub hI =>
    ⟨hI.track, fun e he => hI.source e (hsub.subset he), hI.keys, hI.qos0, hI.once⟩

/-! ## From the broker to the hub -/

section Connection

variable {s s' : Lossy} {action : LossyAction} {n : Nat}

theorem waiting_append (older newer : List Envelope) :
    waiting n (older ++ newer) = waiting n older ++ waiting n newer := by
  rw [waiting, PairFifo.channel_append, List.filterMap_append, ← waiting, ← waiting]

/-- What was dropped of connection `n` is all that is missing. -/
def Accounted (n : Nat) (s : Lossy) : Prop :=
  Shares (onWay n s.world) (waiting n s.lost) (sentOn n s.world.log)

theorem accounted_of_moved (h : LossyMoved s action s') (hI : Accounted n s) : Accounted n s' := by
  cases h with
  | act hstep =>
    obtain ⟨new, hway, hsent⟩ := onWay_of_moved (n := n) (moved_of_step hstep)
    have more := Shares.append hI new
    rwa [← hway, ← hsent] at more
  | @drop _ older newer envelope hbus =>
    have before : Shares (tookFrom n s.world.log ++ waiting n older ++ waiting n [envelope] ++
        (waiting n newer ++ unread n s.world.networks)) (waiting n s.lost)
        (sentOn n s.world.log) := by
      have hI : Shares (onWay n s.world) (waiting n s.lost) (sentOn n s.world.log) := hI
      rw [onWay, hbus, waiting_append, waiting_append] at hI
      simpa only [List.append_assoc] using hI
    have after := before.lose
    rw [← waiting_append] at after
    change Shares (tookFrom n s.world.log ++ waiting n (older ++ newer) ++
      unread n s.world.networks) (waiting n (s.lost ++ [envelope])) (sentOn n s.world.log)
    rw [waiting_append older newer]
    simpa only [List.append_assoc] using after
  | userRecv htake =>
    have same := waiting_take_of_ne (n := n) htake (by simp [Envelope.channel])
    change Shares (tookFrom n s.world.log ++ waiting n _ ++ unread n s.world.networks) _ _
    rw [same]
    exact hI

theorem reachable_accounted {ok : Lossy → LossyAction → Prop} {options : MqttOptions}
    {protocol : Protocol} (h : Reachable Lossy.step ok (.init options protocol) s) (n : Nat) :
    Accounted n s := by
  refine h.invariant ?_ ?_
  · exact Shares.whole []
  · intro s action s' _ ih _ hstep
    exact accounted_of_moved (lossyMoved_of_step hstep) ih

end Connection

/-! ## From the hub to the user -/

def posted : Envelope → Option Publish
  | ⟨_, _, .mqtt (.Publish publish), _⟩ => some publish
  | _ => none

/-- The messages in the queue of the user, oldest first. -/
def mail (bus : List Envelope) : List Publish :=
  (PairFifo.channel Envelope.channel (.hub, .client) bus).filterMap posted

def message : MqttEvent → Option Publish
  | .Publish publish => some publish
  | _ => none

/-- The messages that the user has received, oldest first. -/
def messages (got : List MqttEvent) : List Publish := got.filterMap message

/-- Messages for the user come from the hub. -/
def FromHub (w : World) : Prop :=
  ∀ e ∈ w.bus, ∀ publish, e.event = .mqtt (.Publish publish) → e.sender = .hub

section User

variable {s s' : Lossy} {w w' : World} {action : Action}

theorem resilient_fromHub : Resilient FromHub where
  start := fun _ _ _ he => absurd he List.not_mem_nil
  kept := by
    intro w action w' hI hstep e he publish hevent
    rcases mem_bus_of_moved (moved_of_step hstep) he with hold | hnew
    · exact hI e hold publish hevent
    · cases hnew with
      | mqtt hfrom =>
        cases hevent
        exact hfrom publish rfl
      | _ => cases hevent
  fewer := fun _ _ hsub hI e he => hI e (hsub.subset he)

theorem mail_append (older newer : List Envelope) :
    mail (older ++ newer) = mail older ++ mail newer := by
  rw [mail, PairFifo.channel_append, List.filterMap_append, ← mail, ← mail]

theorem mail_outputs (w : World) (message : Nat) (outputs : List Output) :
    mail (World.applyOutputs message w outputs).bus = mail w.bus ++ shownIn outputs := by
  induction outputs generalizing w with
  | nil => exact (List.append_nil _).symm
  | cons output rest ih =>
    have first : mail (World.applyOutput message w output).bus =
        mail w.bus ++ shownIn [output] := by
      cases output with
      | dispatch event =>
        cases event <;> simp [World.applyOutput, World.subscribers, mail, shownIn, posted,
          PairFifo.channel, Envelope.channel]
      | disconnect =>
        have other : mail ((w.subscribers .disconnect).map
            (fun receiver => ⟨.hub, receiver, .disconnect, 0⟩)) = [] := by
          rw [mail, List.filterMap_eq_nil_iff]
          intro e he
          obtain ⟨receiver, _, rfl⟩ := List.mem_map.mp (PairFifo.mem_channel.mp he).1
          rfl
        change mail (w.bus ++ _) = _
        rw [mail_append, other]
        rfl
      | _ => exact (List.append_nil _).symm
    have both : shownIn (output :: rest) = shownIn [output] ++ shownIn rest := by
      rw [← List.singleton_append, shownIn, List.filterMap_append]
      rfl
    have later := ih (World.applyOutput message w output)
    rw [first, List.append_assoc, ← both] at later
    exact later

/-- What the hub has for the user it puts into the user's queue. -/
theorem mail_of_moved (hsource : FromNetworks w) (h : Moved w action w') :
    ∃ new, mail w'.bus = mail w.bus ++ new ∧ shown w'.log = shown w.log ++ new := by
  rcases hub_or_not h with ⟨a, rfl, hmoved⟩ | notHub
  · cases hmoved with
    | @intro input message taken hub outputs htakes hmove =>
      refine ⟨shownIn outputs, ?_, ?_⟩
      · have same : mail taken.bus = mail w.bus := by
          have other {j message : Nat} {sender receiver : Worker} {event : BusEvent}
              {rest : List Envelope} (htake : PairFifo.take Envelope.channel w.bus j =
                some (⟨sender, receiver, event, message⟩, rest)) (hne : receiver ≠ .client) :
              mail rest = mail w.bus := by
            rw [mail, mail, PairFifo.channel_take_of_ne htake]
            exact fun heq => hne (congrArg Prod.snd heq)
          cases htakes with
          | connecting htake => exact other htake (by simp)
          | network htake => exact other htake (by simp)
          | command htake => exact other htake (by simp)
          | clientData htake => exact other htake (by simp)
          | hubMsg htake => exact other htake (by simp)
          | _ => rfl
        rw [mail_outputs]
        exact congrArg (· ++ shownIn outputs) same
      · rw [(flows_of_outputs { taken with hub := hub } message outputs).1]
        exact congrArg (· ++ shownIn outputs) (flows_of_takes hsource htakes).1
  · obtain ⟨events, hlog, houtside⟩ := log_outside h notHub
    have unseen : events.reverse.filterMap shownBy = [] := by
      refine List.filterMap_eq_nil_iff.mpr fun event hevent => ?_
      cases houtside event (List.mem_reverse.mp hevent) with
      | @user msg ack => cases msg <;> rfl
      | _ => rfl
    refine ⟨[], ?_, ?_⟩
    · rw [mail, channel_of_moved h ?_ ?_, ← mail, List.append_nil]
      · intro e hnew heq
        have hspeaker := (sender_of_emission hnew).symm.trans (congrArg Prod.fst heq)
        cases action with
        | hub a => exact notHub a rfl
        | _ => cases hspeaker
      · intro j htaking
        cases htaking
    · rw [hlog, shown, List.reverse_append, List.filterMap_append, unseen, ← shown]

/-- What was dropped on the way to the user is all that is missing. -/
structure Delivered (s : Lossy) : Prop where
  passes : Passes s.world
  fromHub : FromHub s.world
  shares : Shares (messages s.got ++ mail s.world.bus) (mail s.lost) (shown s.world.log)

theorem delivered_of_moved {action : LossyAction} (passes : Passes s'.world)
    (fromHub : FromHub s'.world) (h : LossyMoved s action s') (hI : Delivered s) :
    Delivered s' := by
  refine ⟨passes, fromHub, ?_⟩
  have shares := hI.shares
  cases h with
  | act hstep =>
    obtain ⟨new, hmail, hshown⟩ := mail_of_moved hI.passes.source (moved_of_step hstep)
    have more := shares.append new
    rwa [List.append_assoc, ← hmail, ← hshown] at more
  | @drop _ older newer envelope hbus =>
    rw [hbus, mail_append, mail_append, ← List.append_assoc, ← List.append_assoc] at shares
    have after := shares.lose
    rwa [List.append_assoc, ← mail_append, ← mail_append] at after
  | @userRecv _ number sender event rest htake =>
    change Shares (messages (s.got ++ [event]) ++ mail rest) _ _
    have same : messages (s.got ++ [event]) ++ mail rest =
        messages s.got ++ mail s.world.bus := by
      rw [messages, List.filterMap_append, ← messages, List.append_assoc]
      refine congrArg (messages s.got ++ ·) ?_
      by_cases hsender : sender = .hub
      · subst hsender
        have head : PairFifo.channel Envelope.channel (.hub, .client) s.world.bus =
            ⟨.hub, .client, .mqtt event, number⟩ ::
              PairFifo.channel Envelope.channel (.hub, .client) rest := PairFifo.channel_take htake
        rw [mail, mail, head]
        cases event <;> rfl
      · have other : mail rest = mail s.world.bus := by
          rw [mail, mail, PairFifo.channel_take_of_ne htake]
          exact fun heq => hsender (congrArg Prod.fst heq)
        have nothing : [event].filterMap message = [] := by
          cases event with
          | Publish publish =>
            exact absurd (hI.fromHub _ (PairFifo.mem_of_take htake) publish rfl) hsender
          | _ => rfl
        rw [nothing, other]
        rfl
    rwa [same]

theorem reachable_delivered {ok : Lossy → LossyAction → Prop} {options : MqttOptions}
    {protocol : Protocol} (h : Reachable Lossy.step ok (.init options protocol) s) :
    Delivered s := by
  refine h.invariant ?_ ?_
  · exact ⟨passes_init options protocol, resilient_fromHub.start options protocol, Shares.whole []⟩
  · intro s action s' hreach ih hok hstep
    have after := hreach.next hok hstep
    exact delivered_of_moved (resilient_passes.reachable after) (resilient_fromHub.reachable after)
      (lossyMoved_of_step hstep) ih

end User

/-! ## What arrives -/

/-- In every run on a bus that may drop any event at any moment, for every connection:
what the hub has taken of it, what waits for the hub and what is unread are, in this
order, what the broker has sent on it less what was dropped of it, each once. They are
all of it exactly if nothing of it was dropped. -/
theorem connection_in_order {options : MqttOptions} {protocol : Protocol} {s : Lossy}
    (h : Reachable Lossy.step free (.init options protocol) s) (n : Nat) :
    (onWay n s.world).Sublist (sentOn n s.world.log) ∧
    (onWay n s.world ++ waiting n s.lost).Perm (sentOn n s.world.log) ∧
    (onWay n s.world = sentOn n s.world.log ↔ waiting n s.lost = []) := by
  have accounted := reachable_accounted h n
  exact ⟨accounted.order, accounted.share, accounted.eq_iff⟩

/-- With two places in every queue, three messages are read before the hub takes one,
and two are shown before the user takes the event that is already there. -/
def crowdedRun : List LossyAction :=
  [.act (.hub (.connect 0)), .act (.network 0 (.connected false)), .act (.hub (.connecting 0)),
    .act (.hub .load), .act (.hub .resend),
    .act (.broker 0 (.send (.Publish (.new "a" .AtMostOnce [] false .V4)) 1)),
    .act (.broker 0 (.send (.Publish (.new "b" .AtMostOnce [] false .V4)) 2)),
    .act (.broker 0 (.send (.Publish (.new "c" .AtMostOnce [] false .V4)) 3)),
    .act (.network 0 .read), .act (.network 0 .read), .act (.network 0 .read), .drop 3,
    .act (.hub (.recv 1)), .act (.hub (.recv 1)), .drop 2, .userRecv 0, .userRecv 0]

theorem crowded_connection_in_order :
    ∃ s : Lossy, (messages s.got = [.new "a" .AtMostOnce [] false .V4] ∧ s.lost.length = 2 ∧
        waiting 0 s.lost = [.new "c" .AtMostOnce [] false .V4]) ∧
      (onWay 0 s.world).Sublist (sentOn 0 s.world.log) ∧
      (onWay 0 s.world ++ waiting 0 s.lost).Perm (sentOn 0 s.world.log) := by
  obtain ⟨s, hreach, hat⟩ : ∃ s, Reachable Lossy.step (Overflows 2) (.init ⟨60, true⟩ .V4) s ∧
      (messages s.got = [.new "a" .AtMostOnce [] false .V4] ∧ s.lost.length = 2 ∧
        waiting 0 s.lost = [.new "c" .AtMostOnce [] false .V4]) :=
    exists_of_guardedRun crowdedRun (by decide +kernel)
  obtain ⟨order, share, _⟩ := connection_in_order (hreach.mono fun _ _ _ => trivial) 0
  exact ⟨s, hat, order, share⟩

section Qos0

variable {s : Lossy}

/-- The QoS 0 messages that the hub took, with their connections, oldest first. -/
def qos0Flow (log : List Event) : List (Nat × Publish) :=
  (tookFlow log).filter (fun item => isQos0 item.2)

theorem part_qos0Flow (n : Nat) (log : List Event) :
    part n (qos0Flow log) = (tookFrom n log).filter isQos0 := by
  rw [qos0Flow, ← part_tookFlow, part, part, List.filterMap_filter, List.filter_filterMap]
  congr 1
  funext item
  by_cases hqos : isQos0 item.2 = true <;> by_cases hn : item.1 = n <;>
    simp [hqos, hn, Option.filter]

theorem shown_qos0 {w : World} (passes : Passes w) :
    (qos0Flow w.log).map Prod.snd = (shown w.log).filter isQos0 := by
  rw [passes.qos0, qos0Flow, List.filter_map]
  rfl

/-- The hub took each message once, in the order in which it was sent. -/
theorem took_of_sent {n : Nat} (accounted : Accounted n s) :
    (part n (qos0Flow s.world.log)).Sublist ((sentOn n s.world.log).filter isQos0) ∧
    (waiting n s.lost = [] →
      part n (qos0Flow s.world.log) <+: (sentOn n s.world.log).filter isQos0) := by
  have first : tookFrom n s.world.log <+: onWay n s.world := by
    rw [onWay, List.append_assoc]
    exact List.prefix_append _ _
  rw [part_qos0Flow]
  refine ⟨(first.sublist.trans accounted.order).filter _, fun none => ?_⟩
  rw [← accounted.eq_iff.mpr none]
  exact first.filter _

end Qos0

/-- In every run on a bus that may drop any event at any moment: the QoS 0 messages that
the user has received are a merge of the connections' own, those of one connection in the
order in which the broker sent them, each at most once. If no message for the user and
nothing of the connection was dropped, they are the first ones that it sent, without a
gap. -/
theorem qos0_received_in_order {options : MqttOptions} {protocol : Protocol} {s : Lossy}
    (h : Reachable Lossy.step free (.init options protocol) s) :
    ∃ flow : List (Nat × Publish), flow.map Prod.snd = (messages s.got).filter isQos0 ∧
      ∀ n, (part n flow).Sublist ((sentOn n s.world.log).filter isQos0) ∧
        (mail s.lost = [] → waiting n s.lost = [] →
          part n flow <+: (sentOn n s.world.log).filter isQos0) := by
  have delivered := reachable_delivered h
  have took n := took_of_sent (reachable_accounted h n)
  have seen := shown_qos0 delivered.passes
  by_cases none : mail s.lost = []
  · have whole := delivered.shares.eq_iff.mpr none
    have first : (messages s.got).filter isQos0 <+: (qos0Flow s.world.log).map Prod.snd := by
      rw [seen, ← whole]
      exact (List.prefix_append _ _).filter _
    obtain ⟨flow, hprefix, hflow⟩ := List.prefix_map_iff.mp first
    have partly n : part n flow <+: part n (qos0Flow s.world.log) := hprefix.filterMap _
    exact ⟨flow, hflow.symm, fun n => ⟨(partly n).sublist.trans (took n).1,
      fun _ kept => (partly n).trans ((took n).2 kept)⟩⟩
  · have some : ((messages s.got).filter isQos0).Sublist
        ((qos0Flow s.world.log).map Prod.snd) := by
      rw [seen]
      exact ((List.sublist_append_left _ _).trans delivered.shares.order).filter _
    obtain ⟨flow, hsub, hflow⟩ := List.sublist_map_iff.mp some
    have partly n : (part n flow).Sublist (part n (qos0Flow s.world.log)) := hsub.filterMap _
    exact ⟨flow, hflow.symm, fun n => ⟨(partly n).trans (took n).1,
      fun clear => absurd clear none⟩⟩

/-- Of the three messages the user has received the first. -/
theorem crowded_messages_received :
    ∃ s : Lossy, (messages s.got = [.new "a" .AtMostOnce [] false .V4] ∧
        (mail s.lost).length = 1 ∧ (sentOn 0 s.world.log).length = 3) ∧
      ∃ flow : List (Nat × Publish), flow.map Prod.snd = (messages s.got).filter isQos0 ∧
        ∀ n, (part n flow).Sublist ((sentOn n s.world.log).filter isQos0) := by
  obtain ⟨s, hreach, hat⟩ : ∃ s, Reachable Lossy.step (Overflows 2) (.init ⟨60, true⟩ .V4) s ∧
      (messages s.got = [.new "a" .AtMostOnce [] false .V4] ∧
        (mail s.lost).length = 1 ∧ (sentOn 0 s.world.log).length = 3) :=
    exists_of_guardedRun crowdedRun (by decide +kernel)
  obtain ⟨flow, hflow, parts⟩ := qos0_received_in_order (hreach.mono fun _ _ _ => trivial)
  exact ⟨s, hat, flow, hflow, fun n => (parts n).1⟩

end LossyBus
