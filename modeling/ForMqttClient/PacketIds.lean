import ForMqttClient.GuardedRuns
import ForMqttClient.HubSteps

/-!
# Packet-id conservation

The pool of packet ids and the ids of the entries of `clientData` share out
1..=65535 between them. The law is proved of the hub as an open system, so it
holds for every sequence of requests, messages (stale or repeated `RecoverId`
included), commands, network events and reconnections.
-/

namespace PacketIds

open MqttData BoundedRing TaskHub HubSteps GuardedRuns

/-- One step of the open hub; the first component is the value of the
process-wide `KEEP_ALIVE_ID` at that moment. -/
def hubStep (hub : Hub) (action : Nat × HubInput) : Option Hub :=
  (hub.step action.1 action.2).map Outcome.hub

def allIds : List PacketId := List.range' 1 poolCapacity

def entryIds (hub : Hub) : List PacketId := hub.clientData.map (·.packetId)

/-- The abstract account of the hub: pool ids are free, entry ids are held. -/
def IdsConserved (hub : Hub) : Prop :=
  Conserved allIds hub.pool.items (entryIds hub)

theorem allIds_nodup : allIds.Nodup := List.nodup_range'

theorem allIds_length : allIds.length = poolCapacity := List.length_range'

/-- The three things a step can do with packet ids. -/
inductive IdMove (hub hub' : Hub) : Prop where
  | keep (pool : hub'.pool = hub.pool) (ids : entryIds hub' = entryIds hub)
  | acquire (packetId : PacketId) (pool : hub.pool.items = packetId :: hub'.pool.items)
      (ids : entryIds hub' = entryIds hub ++ [packetId])
  | release (index : Nat) (bound : index < (entryIds hub).length)
      (pool : hub'.pool.items = hub.pool.items ++ [(entryIds hub)[index]])
      (ids : entryIds hub' = (entryIds hub).eraseIdx index)

theorem IdMove.conserved {hub hub' : Hub} (move : IdMove hub hub')
    (h : IdsConserved hub) : IdsConserved hub' := by
  unfold IdsConserved at h ⊢
  cases move with
  | keep pool ids => rw [pool, ids]; exact h
  | acquire packetId pool ids =>
    rw [ids]
    rw [pool] at h
    exact h.acquire
  | release index bound pool ids =>
    rw [pool, ids]
    exact h.release bound

theorem requestId_spec {hub hub' : Hub} {packetId : PacketId}
    (h : hub.requestId = some (packetId, hub')) :
    hub.pool.items = packetId :: hub'.pool.items ∧ hub'.clientData = hub.clientData := by
  unfold Hub.requestId at h
  split at h
  · next pool hpop =>
    obtain ⟨rfl, rfl⟩ := Prod.mk.inj (Option.some.inj h)
    exact ⟨Ring.pop_eq_some hpop, rfl⟩
  · cases h

theorem requestId_none {hub : Hub} (h : hub.pool.items = []) : hub.requestId = none := by
  simp [Hub.requestId, Ring.pop_eq_none.mpr h]

/-- The push has room, because the id that it returns is still held. -/
theorem push_room {hub : Hub} (h : IdsConserved hub) {index : Nat}
    {obj : UnacknowledgedClientData} (hobj : hub.clientData[index]? = some obj) :
    hub.pool.items.length < poolCapacity := by
  obtain ⟨hlt, _⟩ := List.getElem?_eq_some_iff.mp hobj
  have held : 0 < (entryIds hub).length := by
    simp only [entryIds, List.length_map]
    omega
  have := h.room held
  rwa [allIds_length] at this

/-- Replacing an entry by one with its id leaves the held ids as they were. -/
theorem entryIds_set {hub : Hub} {index : Nat} {obj obj' : UnacknowledgedClientData}
    (hobj : hub.clientData[index]? = some obj) (hid : obj'.packetId = obj.packetId) :
    (hub.clientData.set index obj').map (·.packetId) = entryIds hub := by
  obtain ⟨hlt, hget⟩ := List.getElem?_eq_some_iff.mp hobj
  have bound : index < (entryIds hub).length := by simpa [entryIds] using hlt
  have same : obj'.packetId = (entryIds hub)[index] := by simp [entryIds, hget, hid]
  rw [List.map_set, same]
  exact List.set_getElem_self bound

theorem recoverDone_move {hub hub' : Hub} {packetId : PacketId} {index : Nat}
    {obj : UnacknowledgedClientData} (hobj : hub.clientData[index]? = some obj)
    (hid : obj.packetId = packetId) (hpush : hub.pool.push packetId = some hub'.pool)
    (hdata : hub'.clientData = hub.clientData.eraseIdx index) : IdMove hub hub' := by
  obtain ⟨hlt, hget⟩ := List.getElem?_eq_some_iff.mp hobj
  have bound : index < (entryIds hub).length := by simpa [entryIds] using hlt
  have entry : (entryIds hub)[index] = packetId := by simp [entryIds, hget, hid]
  refine .release index bound ?_ ?_
  · rw [entry]
    exact Ring.push_eq_some hpush
  · rw [entryIds, hdata]
    exact (List.eraseIdx_map ..).symm

theorem idMove_of_move {hub hub' : Hub} (h : IdsConserved hub) {keepAliveId : Nat}
    {input : HubInput} {outputs : List Output} (move : Move keepAliveId hub input hub' outputs) :
    IdMove hub hub' := by
  cases move with
  | accept hat hid hpop hfresh =>
    exact .acquire _ (Ring.pop_eq_some hpop) (by simp [entryIds])
  | recoverDone hat hfind hentry hdone hpush =>
    rcases hpush with hpush | ⟨hfull, _⟩
    · exact recoverDone_move hentry (found_packetId hfind hentry) hpush rfl
    · obtain ⟨pool, hroom⟩ := Ring.push_isSome (push_room h hentry)
      rw [hroom] at hfull
      cases hfull
  | recoverRel hat hfind hentry => exact .keep rfl (entryIds_set hentry rfl)
  | _ => exact .keep rfl rfl

/-- The push of the `RecoverId` branch never fails. -/
theorem recoverId_ok {hub : Hub} (h : IdsConserved hub) (packetId : PacketId) :
    (hub.recoverId packetId).result = .ok () := by
  cases hfind : hub.clientData.findIdx? (fun obj => obj.packetId = packetId) with
  | none => simp [Hub.recoverId, hfind]
  | some index =>
    obtain ⟨obj, hobj, _⟩ := findEntry_spec hfind
    obtain ⟨pool, hpush⟩ := Ring.push_isSome (a := packetId) (push_room h hobj)
    by_cases hdone : obj.acknowledge.2 = true
    · simp [Hub.recoverId, hfind, hobj, hdone, hpush]
    · simp [Hub.recoverId, hfind, hobj, hdone]

theorem found_first {hub : Hub} {entry : UnacknowledgedClientData}
    {entries : List UnacknowledgedClientData} (h : hub.clientData = entry :: entries) :
    hub.clientData.findIdx? (fun obj => obj.packetId = entry.packetId) = some 0 ∧
      hub.clientData[0]? = some entry := by
  rw [h]
  exact ⟨by simp [List.findIdx?_cons], rfl⟩

/-- The first entry is done: it goes, its id is free again, and a token is drawn. -/
theorem recoverId_completing {hub : Hub} (conserved : IdsConserved hub)
    {entry : UnacknowledgedClientData} {entries : List UnacknowledgedClientData}
    (h : hub.clientData = entry :: entries) (hdone : entry.acknowledge.2 = true) :
    ∃ pool, hub.recoverId entry.packetId =
        ⟨{ hub with clientData := entries, drawing := true, pool := pool }, [.fetchAdd], .ok ()⟩ ∧
      pool.items = hub.pool.items ++ [entry.packetId] := by
  obtain ⟨found, first⟩ := found_first h
  have erased : hub.clientData.eraseIdx 0 = entries := by rw [h]; rfl
  obtain ⟨pool, hpush⟩ := Ring.push_isSome (a := entry.packetId) (push_room conserved first)
  refine ⟨pool, ?_, Ring.push_eq_some hpush⟩
  simp only [Hub.recoverId, found, first, hdone, hpush, erased, Hub.initKeepAliveCheck, if_true]

theorem initial_conserved (options : MqttOptions) (protocol : Protocol) :
    IdsConserved (Hub.init options protocol) := by
  simp [IdsConserved, Conserved, Hub.init, initialPool, entryIds, allIds]

theorem move_of_hubStep {hub hub' : Hub} {action : Nat × HubInput}
    (hstep : hubStep hub action = some hub') :
    ∃ outputs, Move action.1 hub action.2 hub' outputs := by
  obtain ⟨outcome, ho, rfl⟩ := Option.map_eq_some_iff.mp hstep
  exact ⟨outcome.outputs, move_of_step ho⟩

theorem conserved_of_hubStep {hub hub' : Hub} {action : Nat × HubInput} (h : IdsConserved hub)
    (hstep : hubStep hub action = some hub') : IdsConserved hub' := by
  obtain ⟨outputs, hmove⟩ := move_of_hubStep hstep
  exact (idMove_of_move h hmove).conserved h

theorem reachable_conserved {options : MqttOptions} {protocol : Protocol} {hub : Hub}
    (h : Reachable hubStep free (Hub.init options protocol) hub) : IdsConserved hub := by
  refine h.invariant (initial_conserved options protocol) ?_
  intro hub action hub' _ ih _ hstep
  exact conserved_of_hubStep ih hstep

/-- An id that `request_id` hands out belongs to no entry and is not 0. -/
theorem requestId_fresh {hub hub' : Hub} (h : IdsConserved hub) {packetId : PacketId}
    (hreq : hub.requestId = some (packetId, hub')) :
    packetId ∉ entryIds hub ∧ 1 ≤ packetId ∧ packetId ≤ 65535 := by
  obtain ⟨hpool, _⟩ := requestId_spec hreq
  have nodup := h.nodup allIds_nodup
  rw [hpool, List.cons_append, List.nodup_cons] at nodup
  have mem : packetId ∈ allIds :=
    h.mem_iff.mp (List.mem_append_left _ (hpool ▸ List.mem_cons_self))
  simp only [allIds, poolCapacity, List.mem_range'_1] at mem
  exact ⟨fun hmem => nodup.1 (List.mem_append_right _ hmem), mem.1, Nat.le_of_lt_succ mem.2⟩

/-- No entry has the id that is next in the pool. -/
theorem unused_of_pop {hub : Hub} (h : IdsConserved hub) {packetId : PacketId}
    {pool : Ring PacketId poolCapacity} (hpop : hub.pool.pop = some (packetId, pool)) :
    ∀ entry ∈ hub.clientData, entry.packetId ≠ packetId := by
  have hreq : hub.requestId = some (packetId, { hub with pool := pool }) := by
    rw [Hub.requestId, hpop]
  rintro entry hmem rfl
  exact (requestId_fresh h hreq).1 (List.mem_map_of_mem hmem)

/-- Two entries with one id are one entry. -/
theorem index_unique {hub : Hub} (h : IdsConserved hub) {index index' : Nat}
    {obj obj' : UnacknowledgedClientData} (hobj : hub.clientData[index]? = some obj)
    (hobj' : hub.clientData[index']? = some obj') (hid : obj.packetId = obj'.packetId) :
    index = index' := by
  have first : (entryIds hub)[index]? = some obj.packetId := by simp [entryIds, hobj]
  have second : (entryIds hub)[index']? = some obj.packetId := by simp [entryIds, hobj', hid]
  have bound := (List.getElem?_eq_some_iff.mp first).1
  exact (List.getElem?_inj bound (h.held_nodup allIds_nodup)).mp (first.trans second.symm)

theorem acceptRequest_empty {hub : Hub} (h : hub.pool.items = [])
    (entry : PacketId → UnacknowledgedClientData) (spec : PacketId → TaskSpec) :
    (hub.acceptRequest entry spec).hub = hub := by
  simp [Hub.acceptRequest, requestId_none h]

theorem dealClientData_empty {hub : Hub} (h : hub.pool.items = []) (data : ClientData) :
    (hub.dealClientDataWhenConnected data).hub = hub := by
  cases data with
  | PublishQoS0 packet => rfl
  | PublishQoS1 packet => exact acceptRequest_empty h _ _
  | PublishQoS2 packet => exact acceptRequest_empty h _ _
  | Subscribe trace => exact acceptRequest_empty h _ _
  | Unsubscribe trace => exact acceptRequest_empty h _ _

/-- In every reachable state the pool and the entries hold 1..=65535, each id
exactly once; an id handed out is not in use; the entry that `RecoverId` finds
is the only one with its id; the push of `RecoverId` never fails; a request on
an empty pool changes nothing. -/
theorem packet_ids_conserved {options : MqttOptions} {protocol : Protocol} {hub : Hub}
    (h : Reachable hubStep free (Hub.init options protocol) hub) :
    (hub.pool.items ++ hub.clientData.map (·.packetId)).Perm (List.range' 1 65535) ∧
    (∀ packetId hub', hub.requestId = some (packetId, hub') →
      packetId ∉ hub.clientData.map (·.packetId) ∧ 1 ≤ packetId ∧ packetId ≤ 65535) ∧
    (hub.clientData.map (·.packetId)).Nodup ∧
    (∀ packetId, (hub.recoverId packetId).result = .ok ()) ∧
    (hub.pool.items = [] → ∀ data, (hub.dealClientDataWhenConnected data).hub = hub) := by
  have conserved := reachable_conserved h
  refine ⟨conserved, ?_, conserved.held_nodup allIds_nodup, ?_, ?_⟩
  · intro packetId hub' hreq
    exact requestId_fresh conserved hreq
  · intro packetId
    exact recoverId_ok conserved packetId
  · intro hempty data
    exact dealClientData_empty hempty data

theorem hubStep_msg {hub : Hub} (hat : At hub .Connected .loop) (keepAliveId : Nat)
    (msg : HubMsg) :
    hubStep hub (keepAliveId, .hubMsg msg) = some (hub.dealHubMsg keepAliveId msg).hub := by
  simp only [hubStep, Hub.step, hat.draw, hat.state, hat.position, Bool.false_eq_true, if_false,
    Option.map_some]

/-- The last entry is done, and its id is recovered once more. -/
theorem run_of_stale_recover {hub : Hub} (conserved : IdsConserved hub)
    (hat : At hub .Connected .loop) {entry : UnacknowledgedClientData}
    (h : hub.clientData = [entry]) (hdone : entry.acknowledge.2 = true) :
    (guardedRun hubStep free hub [(1, .hubMsg (.RecoverId entry.packetId)), (2, .load),
      (2, .hubMsg (.RecoverId entry.packetId))]).isSome = true := by
  obtain ⟨pool, recovered, _⟩ := recoverId_completing conserved h hdone
  have first := hubStep_msg hat 1 (.RecoverId entry.packetId)
  rw [Hub.dealHubMsg, recovered] at first
  have second : hubStep { hub with clientData := [], drawing := true, pool := pool } (2, .load) =
      some { hub with clientData := [], drawing := false, pool := pool } := rfl
  have third := @hubStep_msg { hub with clientData := [], drawing := false, pool := pool }
    ⟨rfl, hat.state, hat.position⟩ 2 (.RecoverId entry.packetId)
  simp only [guardedRun, free, if_true, first, Option.bind_some, second, third, Option.isSome_some]

/-- The law after a QoS2 publish was taken in, acknowledged twice, and its id
recovered once more. -/
theorem packet_ids_conserved_after_stale_recover :
    ∃ hub, guardedRun hubStep free (Hub.init ⟨60, true⟩ .V4)
      [(0, .connect []), (0, .connecting (.Connected false)), (1, .load), (1, .resend),
        (1, .clientData (.PublishQoS2 (.init .ExactlyOnce "a" [] false .V4 7))),
        (1, .hubMsg (.RecoverId 1)), (1, .hubMsg (.RecoverId 1)), (2, .load),
        (2, .hubMsg (.RecoverId 1))] = some hub ∧
      (hub.pool.items ++ hub.clientData.map (·.packetId)).Perm (List.range' 1 65535) := by
  -- the push of the pool is left out of the evaluation: thousands of ids are in it
  obtain ⟨hub, hrun, _⟩ : ∃ hub, guardedRun hubStep free (Hub.init ⟨60, true⟩ .V4)
      ([(0, .connect []), (0, .connecting (.Connected false)), (1, .load), (1, .resend),
        (1, .clientData (.PublishQoS2 (.init .ExactlyOnce "a" [] false .V4 7))),
        (1, .hubMsg (.RecoverId 1))] ++ [(1, .hubMsg (.RecoverId 1)), (2, .load),
        (2, .hubMsg (.RecoverId 1))]) = some hub ∧ True := by
    refine end_of_parts (Q := fun hub => hub.clientData = [.PubRel 1 7 .V4] ∧
      hub.drawing = false ∧ hub.state = .Connected ∧ hub.position = .loop) _ _
      (by decide +kernel) ?_
    rintro hub hreach ⟨hdata, hdraw, hstate, hposition⟩
    obtain ⟨later, hrun⟩ := Option.isSome_iff_exists.mp
      (run_of_stale_recover (reachable_conserved hreach) ⟨hdraw, hstate, hposition⟩ hdata rfl)
    exact ⟨later, hrun, trivial⟩
  exact ⟨hub, hrun, (packet_ids_conserved (reachable_of_guardedRun .start hrun)).1⟩

end PacketIds
