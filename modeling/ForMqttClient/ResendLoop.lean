import ForMqttClient.Completions

/-!
# The resend loop

With every `ConnectSuccess` the hub goes once through the requests that wait
for an acknowledgement, in the order in which it accepted them, and starts the
task of each again. Until it is through it takes nothing off its queues.
-/

namespace ResendLoop

open MqttData TaskHub HubSteps Tasks System SystemSteps GuardedRuns Completions

/-! ## What the history says -/

def startedBy : Event → Option TaskSpec
  | .started _ spec => some spec
  | _ => none

/-- The tasks that the hub started, oldest first. -/
def startedIn (log : List Event) : List TaskSpec := log.reverse.filterMap startedBy

/-- The hub took a message, or came up again. -/
def turns : Event → Bool
  | .requested _ | .hubTook _ _ | .user (.ConnectSuccess _) => true
  | _ => false

/-- Since the last `ConnectSuccess` the hub has started the tasks of these
entries, and done nothing else. -/
def Resent (log : List Event) (entries : List UnacknowledgedClientData) : Prop :=
  ∃ newer sessionPresent older, log = newer ++ .user (.ConnectSuccess sessionPresent) :: older ∧
    (∀ event ∈ newer, turns event = false) ∧
    startedIn newer = entries.map (·.toAcknowledge)

def acceptedId : Event → Option TraceId
  | .accepted entry => some entry.id
  | _ => none

/-- The trace ids of the requests that the hub accepted, oldest first. -/
def acceptedIds (log : List Event) : List TraceId := log.reverse.filterMap acceptedId

structure InOrder (w : World) : Prop where
  resent : ∀ next, w.hub.position = .resending next →
    Resent w.log (w.hub.clientData.take next)
  held : (w.hub.clientData.map (·.id)).Sublist (acceptedIds w.log)

section Steps

variable {w w' : World} {action : Action}

theorem startedIn_append (events log : List Event) :
    startedIn (events ++ log) = startedIn log ++ startedIn events := by
  rw [startedIn, List.reverse_append, List.filterMap_append, ← startedIn, ← startedIn]

theorem acceptedIds_append (events log : List Event) :
    acceptedIds (events ++ log) = acceptedIds log ++ acceptedIds events := by
  rw [acceptedIds, List.reverse_append, List.filterMap_append, ← acceptedIds, ← acceptedIds]

theorem acceptedIds_of_suffix {log log' : List Event} (h : log <:+ log') :
    (acceptedIds log).Sublist (acceptedIds log') := by
  obtain ⟨events, rfl⟩ := h
  rw [acceptedIds_append]
  exact List.sublist_append_left _ _

/-- What other parties do leaves the loop where it is. -/
theorem Resent.append {log events : List Event} {entries : List UnacknowledgedClientData}
    (h : Resent log entries)
    (hevents : ∀ event ∈ events, turns event = false ∧ startedBy event = none) :
    Resent (events ++ log) entries := by
  obtain ⟨newer, sessionPresent, older, hlog, hquiet, hstarted⟩ := h
  refine ⟨events ++ newer, sessionPresent, older, by rw [hlog, List.append_assoc], ?_, ?_⟩
  · intro event hmem
    rcases List.mem_append.mp hmem with hmem | hmem
    · exact (hevents event hmem).1
    · exact hquiet event hmem
  · have none : startedIn events = [] :=
      List.filterMap_eq_nil_iff.mpr fun event hmem => (hevents event (List.mem_reverse.mp hmem)).2
    rw [startedIn_append, none, List.append_nil, hstarted]

theorem inOrder_of_outside (h : Moved w action w') (hhub : ∀ a, action ≠ .hub a)
    (hI : InOrder w) : InOrder w' := by
  obtain ⟨events, hlog, hevents⟩ := log_outside h hhub
  have silent : ∀ event ∈ events, turns event = false ∧ startedBy event = none := by
    intro event hmem
    cases hevents event hmem with
    | @user msg ack => cases msg <;> exact ⟨rfl, rfl⟩
    | _ => exact ⟨rfl, rfl⟩
  have hub := (hub_of_moved h hhub).1
  refine ⟨?_, ?_⟩
  · intro next hposition
    rw [hub] at hposition ⊢
    rw [hlog]
    exact (hI.resent next hposition).append silent
  · rw [hub]
    exact hI.held.trans (acceptedIds_of_suffix (log_grows h))

/-- One turn of the loop. -/
theorem resent_entry {log : List Event} {next i : Nat} {entries : List UnacknowledgedClientData}
    {entry : UnacknowledgedClientData} (h : Resent log (entries.take next))
    (hentry : entries[next]? = some entry) :
    Resent (.started i entry.toAcknowledge :: log) (entries.take (next + 1)) := by
  obtain ⟨newer, sessionPresent, older, hlog, hquiet, hstarted⟩ := h
  refine ⟨.started i entry.toAcknowledge :: newer, sessionPresent, older, by rw [hlog]; rfl, ?_, ?_⟩
  · intro event hmem
    rcases List.mem_cons.mp hmem with rfl | hmem
    · rfl
    · exact hquiet event hmem
  · have last := startedIn_append [.started i entry.toAcknowledge] newer
    rw [List.singleton_append] at last
    rw [last, hstarted, List.take_add_one, hentry, List.map_append]
    rfl

theorem resent_of_hub {a : HubAction} (h : HubMoved w a w') (hI : InOrder w) {next : Nat}
    (hposition : w'.hub.position = .resending next) :
    Resent w'.log (w'.hub.clientData.take next) := by
  cases h with
  | @intro input message taken hub outputs htakes hmove =>
    rw [(applyOutputs_grown { taken with hub := hub } message outputs).hub] at hposition ⊢
    have away {state : HubState} (hat : At w.hub state .loop) :
        w.hub.position ≠ .resending next := by
      rw [hat.position]
      exact nofun
    cases hmove with
    | load hdraw =>
      cases htakes
      exact hI.resent next hposition
    | @connected sessionPresent hat =>
      cases hposition
      refine ⟨[], sessionPresent, taken.log, rfl, fun _ hmem => absurd hmem List.not_mem_nil, ?_⟩
      rw [List.take_zero]
      rfl
    | resendEntry hat hentry =>
      cases htakes
      cases hposition
      exact resent_entry (hI.resent _ hat.position) hentry
    -- everywhere else the hub is back at its loop, or still there
    | _ =>
      first
      | cases hposition
      | exact absurd hposition (away ‹_›)

theorem held_of_hub {a : HubAction} (h : HubMoved w a w') (hI : InOrder w) :
    (w'.hub.clientData.map (·.id)).Sublist (acceptedIds w'.log) := by
  have grown := acceptedIds_of_suffix (log_grows (.hub h))
  cases h with
  | @intro input message taken hub outputs htakes hmove =>
    rw [(applyOutputs_grown { taken with hub := hub } message outputs).hub]
    cases hmove with
    | @accept data entry pool hat hid hpop hfresh =>
      have before : taken.log = .requested data :: w.log := by
        cases htakes
        rfl
      have held : (w.hub.clientData.map (·.id)).Sublist (acceptedIds taken.log) := by
        rw [before]
        exact hI.held.trans (acceptedIds_of_suffix (List.suffix_cons ..))
      have added : acceptedIds (.started taken.tasks.length entry.toAcknowledge ::
          .accepted entry :: taken.log) = acceptedIds taken.log ++ [entry.id] :=
        acceptedIds_append [_, .accepted entry] taken.log
      change ((w.hub.clientData ++ [entry]).map (·.id)).Sublist (acceptedIds (.started
        taken.tasks.length entry.toAcknowledge :: .accepted entry :: taken.log))
      rw [added, List.map_append]
      exact held.append (List.Sublist.refl _)
    | recoverDone hat hfind hentry hdone hpush =>
      exact (((List.eraseIdx_sublist ..).map _).trans hI.held).trans grown
    | @recoverRel packetId index packet hat hfind hentry =>
      have same : (w.hub.clientData.set index
          (.PubRel packet.packetId packet.id packet.protocol)).map (·.id) =
          w.hub.clientData.map (·.id) := ids_set hentry rfl
      rw [same]
      exact hI.held.trans grown
    | _ => exact hI.held.trans grown

theorem inOrder_of_moved (h : Moved w action w') (hI : InOrder w) : InOrder w' := by
  rcases hub_or_not h with ⟨a, rfl, hmoved⟩ | notHub
  · exact ⟨fun next hposition => resent_of_hub hmoved hI hposition, held_of_hub hmoved hI⟩
  · exact inOrder_of_outside h notHub hI

end Steps

theorem reachable_inOrder {ok : World → Action → Prop} {options : MqttOptions}
    {protocol : Protocol} {w : World} (h : Reachable World.step ok (.init options protocol) w) :
    InOrder w := by
  have start : InOrder (.init options protocol) := by
    refine ⟨?_, List.Sublist.refl _⟩
    intro next hposition
    cases hposition
  refine h.invariant start ?_
  intro w action w' _ ih _ hstep
  exact inOrder_of_moved (moved_of_step hstep) ih

/-- The loop ends behind the last entry. -/
theorem resent_all {w w' : World} {action : Action} {next : Nat} (hI : InOrder w)
    (h : w.step action = some w') (hposition : w.hub.position = .resending next)
    (hloop : w'.hub.position = .loop) : Resent w'.log w'.hub.clientData := by
  rcases hub_or_not (moved_of_step h) with ⟨a, rfl, hmoved⟩ | notHub
  · cases hmoved with
    | @intro input message taken hub outputs htakes hmove =>
      rw [(applyOutputs_grown { taken with hub := hub } message outputs).hub] at hloop ⊢
      have hawaits := hmove.awaits
      cases input with
      | load =>
        cases hmove
        cases hposition.symm.trans hloop
      | resend =>
        cases htakes
        cases hmove with
        | resendEntry hat hentry => cases hloop
        | resendEnd hat hnone =>
          cases hat.position.symm.trans hposition
          have resent := hI.resent next hposition
          rw [List.take_of_length_le (List.getElem?_eq_none_iff.mp hnone)] at resent
          exact resent
      | disconnect =>
        obtain ⟨reason, hat⟩ := hawaits
        cases hat.position.symm.trans hposition
      | _ => cases (At.position hawaits).symm.trans hposition
  · rw [(hub_of_moved (moved_of_step h) notHub).1] at hloop
    cases hposition.symm.trans hloop

/-- In every run: (a) at turn `next` of the resend loop the hub has started the
tasks of the first `next` entries since the `ConnectSuccess`, in their order, and
taken nothing; (b) when it leaves the loop it has done so for all of them; (c) the
entries stand in the order in which their requests were accepted. -/
theorem resends_all_in_order {options : MqttOptions} {protocol : Protocol} {w : World}
    (h : Reachable World.step free (.init options protocol) w) :
    (∀ next, w.hub.position = .resending next → Resent w.log (w.hub.clientData.take next)) ∧
    (∀ action w' next, w.hub.position = .resending next → w.step action = some w' →
      w'.hub.position = .loop → Resent w'.log w'.hub.clientData) ∧
    (w.hub.clientData.map (·.id)).Sublist (acceptedIds w.log) := by
  have inOrder := reachable_inOrder h
  exact ⟨inOrder.resent,
    fun action w' next hposition hstep hloop => resent_all inOrder hstep hposition hloop,
    inOrder.held⟩

/-- The law in the middle of a resend loop over two publishes. -/
theorem resends_two_in_order :
    ∃ w, guardedRun World.step free (.init ⟨60, true⟩ .V4)
        [.hub (.connect 0), .network 0 (.connected false), .hub (.connecting 0), .hub .load,
          .hub .resend,
          .request (.PublishQoS1 (.init .AtLeastOnce "a" [] false .V4 7)), .hub (.recv 1),
          .request (.PublishQoS2 (.init .ExactlyOnce "b" [] false .V4 8)), .hub (.recv 1),
          .network 0 (.readErr "read 0 byte from network"),
          .hub (.network 1), .hub .disconnect,
          .hub (.connect 0), .network 1 (.connected false), .hub (.connecting 2), .hub .load,
          .hub .resend] = some w ∧
      (w.hub.position = .resending 1 → Resent w.log (w.hub.clientData.take 1)) ∧
      (w.hub.clientData.map (·.id)).Sublist (acceptedIds w.log) :=
  end_of_guardedRun _ (by decide +kernel)
    (fun _ h => ⟨(resends_all_in_order h).1 1, (resends_all_in_order h).2.2⟩)

end ResendLoop
