import ForMqttClient.System

/-!
# One QoS2 exchange seen from outside

How far the exchange of a message that the broker sends with QoS2 has come is read
off the history. Beside it stands what the rest of the system holds of the
exchange: the task that waits for the PUBREL, what is under way in either direction,
and the PUBCOMP that is still owed. The rules say how one step may change this, and
what stays true of it.
-/

namespace Exchanges

open MqttData System

/-- The broker has not sent the message, has sent it, has got a PUBREC for it, has sent
a PUBREL. The flag of the last one says whether a task has taken a PUBREL. -/
inductive Exchange where
  | idle
  | published
  | received
  | released (taken : Bool)
  deriving DecidableEq, Repr

/-- The packets of the client that carry an exchange on. -/
inductive Mark where
  | PubRec
  | PubComp
  deriving DecidableEq, Repr

def mark (id : PacketId) : Outgoing → Option Mark
  | .PubRec packetId => if packetId = id then some .PubRec else none
  | .PubComp packetId => if packetId = id then some .PubComp else none
  | _ => none

namespace Exchange

/-- The broker gets a packet of the client. It expects one PUBREC after its PUBLISH
and one PUBCOMP after its PUBREL. -/
def got (exchange : Exchange) : Mark → Exchange
  | .PubRec => if exchange = .published then .received else exchange
  | .PubComp =>
    match exchange with
    | .released _ => .idle
    | _ => exchange

def offered (exchange : Exchange) : Exchange :=
  if exchange = .idle then .published else exchange

def release (exchange : Exchange) : Exchange :=
  if exchange = .received then .released false else exchange

def take (exchange : Exchange) : Exchange :=
  if exchange = .released false then .released true else exchange

def after (id : PacketId) (exchange : Exchange) : Event → Exchange
  | .brokerSent _ (.Publish publish) _ =>
    if publish.qos = .ExactlyOnce id then exchange.offered else exchange
  | .brokerSent _ (.Ack (.PubRel packetId)) _ =>
    if packetId = id then exchange.release else exchange
  | .brokerGot _ packet =>
    match mark id packet with
    | some m => exchange.got m
    | none => exchange
  | .acked _ (.PubRel packetId) => if packetId = id then exchange.take else exchange
  | _ => exchange

end Exchange

/-- How far the exchange under packet id `id` has come. -/
def exchange (id : PacketId) : List Event → Exchange
  | [] => .idle
  | event :: older => (exchange id older).after id event

/-- The event carries no exchange on. -/
def Silent : Event → Prop
  | .brokerSent _ _ _ => False
  | .brokerGot _ _ => False
  | .acked _ _ => False
  | _ => True

theorem exchange_append {id : PacketId} {events log : List Event}
    (hsilent : ∀ event ∈ events, Silent event) :
    exchange id (events ++ log) = exchange id log := by
  induction events with
  | nil => rfl
  | cons event rest ih =>
    have tail := ih (fun e he => hsilent e (List.mem_cons_of_mem _ he))
    have head := hsilent event List.mem_cons_self
    rw [List.cons_append, exchange, tail]
    cases event with
    | brokerSent n packet message => cases head
    | brokerGot n packet => cases head
    | acked i ack => cases head
    | _ => rfl

/-! ## The abstract exchange -/

structure View where
  exchange : Exchange
  /-- A task waits for the PUBREL. -/
  awaited : Prop
  /-- A task that has taken the PUBREL has yet to write the PUBCOMP. -/
  owed : Prop
  /-- What the broker has yet to read, oldest first. -/
  wire : List Mark
  /-- How many PUBRELs can still reach a task that waits for one. -/
  underWay : Nat

/-- No responder is lost, nothing new is owed, and no PUBREL is added. -/
structure Still (v v' : View) : Prop where
  awaited : v.awaited → v'.awaited
  owed : v'.owed → v.owed
  underWay : v'.underWay ≤ v.underWay

/-- What one step does to an exchange. -/
inductive Moves (v v' : View) : Prop where
  | drift (hexchange : v'.exchange = v.exchange) (hwire : v'.wire = v.wire ∨ v'.wire = [])
      (hstill : Still v v')
  | offers (hidle : v.exchange = .idle) (hexchange : v'.exchange = .published)
      (hwire : v'.wire = v.wire) (hstill : Still v v')
  | writesRec (hawaited : v.awaited) (hexchange : v'.exchange = v.exchange)
      (hwire : v'.wire = v.wire ++ [.PubRec]) (hstill : Still v v')
  | writesComp (howed : v.owed) (hdone : ¬ v'.owed) (hexchange : v'.exchange = v.exchange)
      (hwire : v'.wire = v.wire ++ [.PubComp]) (hstill : Still v v')
  | gets (m : Mark) (hwire : v.wire = m :: v'.wire) (hexchange : v'.exchange = v.exchange.got m)
      (hstill : Still v v')
  | releases (hbefore : v.exchange = .received ∨ v.exchange = .released false ∧ v.underWay = 0)
      (hexchange : v'.exchange = .released false) (hwire : v'.wire = v.wire)
      (hawaited : v.awaited → v'.awaited) (howed : v'.owed → v.owed)
      (hmore : v'.underWay ≤ v.underWay + 1)
  | takes (htaken : v'.underWay + 1 ≤ v.underWay) (hexchange : v'.exchange = v.exchange.take)
      (hwire : v'.wire = v.wire)
  | dies (hreceived : v.exchange ≠ .received) (hreleased : v.exchange ≠ .released false)
      (hrec : .PubRec ∉ v.wire) (hexchange : v'.exchange = v.exchange)
      (hwire : v'.wire = v.wire) (howed : v'.owed → v.owed) (hfewer : v'.underWay ≤ v.underWay)

/-- A PUBREL under way is the only one and not yet answered; whoever the broker may
still send a PUBREL to waits for it. -/
structure Kept (v : View) : Prop where
  once : v.underWay ≤ 1
  unanswered : 0 < v.underWay → v.exchange = .released false
  awaited : v.exchange = .received ∨ v.exchange = .released false → v.awaited
  announced : .PubRec ∈ v.wire → v.awaited ∨ v.exchange = .released true
  renewed : ∀ older newer, v.wire = older ++ .PubComp :: newer → .PubRec ∈ newer → v.awaited
  closing : v.owed ∨ .PubComp ∈ v.wire → v.exchange = .released true
  single : v.wire.count .PubComp ≤ 1
  unwritten : v.owed → .PubComp ∉ v.wire

section Preserved

variable {v v' : View}

/-- A PUBREL that can still be taken has a task that waits for it. -/
theorem Kept.responder (hI : Kept v) (h : 0 < v.underWay) : v.awaited :=
  hI.awaited (.inr (hI.unanswered h))

theorem kept_of_drift (hI : Kept v) (hexchange : v'.exchange = v.exchange)
    (hwire : v'.wire = v.wire ∨ v'.wire = []) (hstill : Still v v') : Kept v' := by
  obtain ⟨hawaited, howed, hfewer⟩ := hstill
  have part : v'.wire.Sublist v.wire := by
    rcases hwire with hsame | hnil
    · rw [hsame]
    · rw [hnil]
      exact List.nil_sublist _
  constructor
  · exact Nat.le_trans hfewer hI.once
  · intro hpos
    rw [hexchange]
    exact hI.unanswered (Nat.lt_of_lt_of_le hpos hfewer)
  · rw [hexchange]
    exact fun h => hawaited (hI.awaited h)
  · intro hrec
    rw [hexchange]
    exact (hI.announced (part.subset hrec)).imp_left hawaited
  · intro older newer hsplit hrec
    rcases hwire with hsame | hnil
    · exact hawaited (hI.renewed older newer (hsame.symm.trans hsplit) hrec)
    · rw [hnil] at hsplit
      simp at hsplit
  · intro h
    rw [hexchange]
    exact hI.closing (h.imp howed (fun hcomp => part.subset hcomp))
  · exact Nat.le_trans (part.count_le _) hI.single
  · exact fun h hcomp => hI.unwritten (howed h) (part.subset hcomp)

theorem kept_of_offer (hI : Kept v) (hidle : v.exchange = .idle)
    (hexchange : v'.exchange = .published) (hwire : v'.wire = v.wire) (hstill : Still v v') :
    Kept v' := by
  obtain ⟨hawaited, howed, hfewer⟩ := hstill
  have unclosed (h : v.owed ∨ .PubComp ∈ v.wire) : False := by
    cases hidle.symm.trans (hI.closing h)
  constructor
  · exact Nat.le_trans hfewer hI.once
  · intro hpos
    cases hidle.symm.trans (hI.unanswered (Nat.lt_of_lt_of_le hpos hfewer))
  · rw [hexchange]
    simp
  · intro hrec
    rw [hwire] at hrec
    rcases hI.announced hrec with h | h
    · exact .inl (hawaited h)
    · cases hidle.symm.trans h
  · rw [hwire]
    exact fun older newer hsplit hrec => hawaited (hI.renewed older newer hsplit hrec)
  · rw [hwire]
    exact fun h => (unclosed (h.imp_left howed)).elim
  · rw [hwire]
    exact hI.single
  · exact fun h => (unclosed (.inl (howed h))).elim

theorem kept_of_writesRec (hI : Kept v) (hwaits : v.awaited) (hexchange : v'.exchange = v.exchange)
    (hwire : v'.wire = v.wire ++ [.PubRec]) (hstill : Still v v') : Kept v' := by
  obtain ⟨hawaited, howed, hfewer⟩ := hstill
  have comp : .PubComp ∈ v'.wire ↔ .PubComp ∈ v.wire := by simp [hwire]
  constructor
  · exact Nat.le_trans hfewer hI.once
  · intro hpos
    rw [hexchange]
    exact hI.unanswered (Nat.lt_of_lt_of_le hpos hfewer)
  · exact fun _ => hawaited hwaits
  · exact fun _ => .inl (hawaited hwaits)
  · exact fun _ _ _ _ => hawaited hwaits
  · rw [hexchange, comp]
    exact fun h => hI.closing (h.imp_left howed)
  · rw [hwire, List.count_append]
    simpa using hI.single
  · rw [comp]
    exact fun h => hI.unwritten (howed h)

theorem kept_of_writesComp (hI : Kept v) (howes : v.owed) (hdone : ¬ v'.owed)
    (hexchange : v'.exchange = v.exchange) (hwire : v'.wire = v.wire ++ [.PubComp])
    (hstill : Still v v') : Kept v' := by
  have hclosing := hI.closing (.inl howes)
  have hnone := hI.unwritten howes
  constructor
  · exact Nat.le_trans hstill.underWay hI.once
  · intro hpos
    rw [hexchange]
    exact hI.unanswered (Nat.lt_of_lt_of_le hpos hstill.underWay)
  · rw [hexchange, hclosing]
    simp
  · exact fun _ => .inr (hexchange.trans hclosing)
  · intro older newer hsplit hrec
    -- the PUBCOMP is the last packet, and there was none before it
    rw [hwire] at hsplit
    rcases List.eq_nil_or_concat newer with rfl | ⟨front, last, rfl⟩
    · cases hrec
    · have hlast : v.wire ++ [.PubComp] = (older ++ .PubComp :: front) ++ [last] := by
        simpa using hsplit
      have hfront := (List.append_inj' hlast rfl).1
      exact absurd (hfront ▸ List.mem_append_right _ List.mem_cons_self) hnone
  · exact fun _ => hexchange.trans hclosing
  · rw [hwire, List.count_append, List.count_eq_zero.mpr hnone]
    simp
  · exact fun h => absurd h hdone

/-- The broker reads a PUBREC. Only after a PUBLISH it is news. -/
theorem kept_of_getsRec (hI : Kept v) (hwire : v.wire = .PubRec :: v'.wire)
    (hexchange : v'.exchange = v.exchange.got .PubRec) (hstill : Still v v') : Kept v' := by
  obtain ⟨hawaited, howed, hfewer⟩ := hstill
  have part {m : Mark} (h : m ∈ v'.wire) : m ∈ v.wire := hwire ▸ List.mem_cons_of_mem _ h
  have renewed (older newer : List Mark) (hsplit : v'.wire = older ++ .PubComp :: newer)
      (hrec : .PubRec ∈ newer) : v'.awaited :=
    hawaited (hI.renewed (.PubRec :: older) newer (hwire.trans (congrArg _ hsplit)) hrec)
  have single : v'.wire.count .PubComp ≤ 1 := by
    have before := hI.single
    rwa [hwire, List.count_cons_of_ne (by simp)] at before
  by_cases hpublished : v.exchange = .published
  · have hreceived : v'.exchange = .received := by rw [hexchange, Exchange.got, if_pos hpublished]
    have waits : v.awaited := by
      rcases hI.announced (hwire ▸ List.mem_cons_self) with h | h
      · exact h
      · cases hpublished.symm.trans h
    have unclosed (h : v.owed ∨ .PubComp ∈ v.wire) : False := by
      cases hpublished.symm.trans (hI.closing h)
    refine ⟨Nat.le_trans hfewer hI.once, ?_, fun _ => hawaited waits,
      fun _ => .inl (hawaited waits), renewed, fun h => (unclosed (h.imp howed part)).elim, single,
      fun h => (unclosed (.inl (howed h))).elim⟩
    intro hpos
    cases hpublished.symm.trans (hI.unanswered (Nat.lt_of_lt_of_le hpos hfewer))
  · have hsame : v'.exchange = v.exchange := by rw [hexchange, Exchange.got, if_neg hpublished]
    refine ⟨Nat.le_trans hfewer hI.once, ?_, ?_, ?_, renewed, ?_, single, ?_⟩
    · rw [hsame]
      exact fun hpos => hI.unanswered (Nat.lt_of_lt_of_le hpos hfewer)
    · rw [hsame]
      exact fun h => hawaited (hI.awaited h)
    · rw [hsame]
      exact fun hrec => (hI.announced (part hrec)).imp_left hawaited
    · rw [hsame]
      exact fun h => hI.closing (h.imp howed part)
    · exact fun h hcomp => hI.unwritten (howed h) (part hcomp)

/-- The broker reads the PUBCOMP, and what is left on the wire is of a new exchange. -/
theorem kept_of_getsComp (hI : Kept v) (hwire : v.wire = .PubComp :: v'.wire)
    (hexchange : v'.exchange = v.exchange.got .PubComp) (hstill : Still v v') : Kept v' := by
  obtain ⟨hawaited, howed, hfewer⟩ := hstill
  have hmem : .PubComp ∈ v.wire := hwire ▸ List.mem_cons_self
  have hclosing := hI.closing (.inr hmem)
  have hidle : v'.exchange = .idle := by rw [hexchange, hclosing, Exchange.got]
  have hlast : .PubComp ∉ v'.wire := by
    have before := hI.single
    rw [hwire, List.count_cons_self] at before
    exact List.count_eq_zero.mp (by omega)
  have hdone : ¬ v'.owed := fun h => hI.unwritten (howed h) hmem
  refine ⟨Nat.le_trans hfewer hI.once, ?_, ?_, ?_, ?_, ?_, ?_, fun h => absurd h hdone⟩
  · intro hpos
    cases hclosing.symm.trans (hI.unanswered (Nat.lt_of_lt_of_le hpos hfewer))
  · rw [hidle]
    simp
  · exact fun hrec => .inl (hawaited (hI.renewed [] v'.wire hwire hrec))
  · intro older newer hsplit _
    exact absurd (hsplit ▸ List.mem_append_right _ List.mem_cons_self) hlast
  · exact fun h => (h.elim hdone hlast).elim
  · rw [List.count_eq_zero.mpr hlast]
    omega

theorem kept_of_release (hI : Kept v)
    (hbefore : v.exchange = .received ∨ v.exchange = .released false ∧ v.underWay = 0)
    (hexchange : v'.exchange = .released false) (hwire : v'.wire = v.wire)
    (hawaited : v.awaited → v'.awaited) (howed : v'.owed → v.owed)
    (hmore : v'.underWay ≤ v.underWay + 1) : Kept v' := by
  have hnone : v.underWay = 0 := by
    rcases hbefore with hreceived | ⟨_, hnone⟩
    · by_contra hpos
      cases hreceived.symm.trans (hI.unanswered (Nat.pos_of_ne_zero hpos))
    · exact hnone
  have waits : v'.awaited := hawaited (hI.awaited (hbefore.imp_right And.left))
  have unclosed (h : v.owed ∨ .PubComp ∈ v.wire) : False := by
    have hclosing := hI.closing h
    rcases hbefore with hreceived | ⟨hreleased, _⟩
    · cases hreceived.symm.trans hclosing
    · cases hreleased.symm.trans hclosing
  refine ⟨by omega, fun _ => hexchange, fun _ => waits, fun _ => .inl waits,
    fun _ _ _ _ => waits, ?_, ?_, fun h => (unclosed (.inl (howed h))).elim⟩
  · rw [hwire]
    exact fun h => (unclosed (h.imp_left howed)).elim
  · rw [hwire]
    exact hI.single

/-- The task takes the PUBREL: from now on it owes the PUBCOMP. -/
theorem kept_of_take (hI : Kept v) (htaken : v'.underWay + 1 ≤ v.underWay)
    (hexchange : v'.exchange = v.exchange.take) (hwire : v'.wire = v.wire) : Kept v' := by
  have hreleased := hI.unanswered (by omega)
  have hafter : v'.exchange = .released true := by
    rw [hexchange, hreleased, Exchange.take, if_pos rfl]
  have hnone : .PubComp ∉ v'.wire := by
    rw [hwire]
    intro hcomp
    cases hreleased.symm.trans (hI.closing (.inr hcomp))
  have bound := hI.once
  refine ⟨by omega, fun hpos => by omega, ?_, fun _ => .inr hafter, ?_, fun _ => hafter, ?_,
    fun _ => hnone⟩
  · rw [hafter]
    simp
  · intro older newer hsplit _
    exact absurd (hsplit ▸ List.mem_append_right _ List.mem_cons_self) hnone
  · rw [List.count_eq_zero.mpr hnone]
    omega

theorem kept_of_death (hI : Kept v) (hreceived : v.exchange ≠ .received)
    (hreleased : v.exchange ≠ .released false) (hrec : .PubRec ∉ v.wire)
    (hexchange : v'.exchange = v.exchange) (hwire : v'.wire = v.wire) (howed : v'.owed → v.owed)
    (hfewer : v'.underWay ≤ v.underWay) : Kept v' := by
  refine ⟨Nat.le_trans hfewer hI.once, ?_, ?_, ?_, ?_, ?_, ?_, ?_⟩
  · rw [hexchange]
    exact fun hpos => hI.unanswered (Nat.lt_of_lt_of_le hpos hfewer)
  · rw [hexchange]
    exact fun h => (h.elim hreceived hreleased).elim
  · rw [hwire]
    exact fun h => absurd h hrec
  · rw [hwire]
    intro older newer hsplit h
    exact absurd (hsplit ▸ List.mem_append_right _ (List.mem_cons_of_mem _ h)) hrec
  · rw [hexchange, hwire]
    exact fun h => hI.closing (h.imp_left howed)
  · rw [hwire]
    exact hI.single
  · rw [hwire]
    exact fun h => hI.unwritten (howed h)

theorem kept_of_moves (h : Moves v v') (hI : Kept v) : Kept v' := by
  cases h with
  | drift hexchange hwire hstill => exact kept_of_drift hI hexchange hwire hstill
  | offers hidle hexchange hwire hstill => exact kept_of_offer hI hidle hexchange hwire hstill
  | writesRec hawaited hexchange hwire hstill =>
    exact kept_of_writesRec hI hawaited hexchange hwire hstill
  | writesComp howed hdone hexchange hwire hstill =>
    exact kept_of_writesComp hI howed hdone hexchange hwire hstill
  | gets m hwire hexchange hstill =>
    cases m with
    | PubRec => exact kept_of_getsRec hI hwire hexchange hstill
    | PubComp => exact kept_of_getsComp hI hwire hexchange hstill
  | releases hbefore hexchange hwire hawaited howed hmore =>
    exact kept_of_release hI hbefore hexchange hwire hawaited howed hmore
  | takes htaken hexchange hwire => exact kept_of_take hI htaken hexchange hwire
  | dies hreceived hreleased hrec hexchange hwire howed hfewer =>
    exact kept_of_death hI hreceived hreleased hrec hexchange hwire howed hfewer

end Preserved

end Exchanges
