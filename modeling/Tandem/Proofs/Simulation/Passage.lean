import Mathlib.Data.List.Forall2
import Mathlib.Data.List.Induction
import Tandem.Simulation.Channel
/-!
# What a channel hands out

A channel is opened, broken, given frames and asked for what has arrived, in any order and at any times; times may go
back, and frames may be sent under epochs that are over or have not come yet.  Whatever is done, it is a stream for
each connection and each direction: an end gets the front of what was sent to it over a connection, in that order and
each frame once, no frame before its time, and none after it was told that the connection is gone.

* `Ledger` is what the calls alone say of the connections: how many there have been, and which frames were sent over
  the one that was open.  It knows nothing of queues.
* `Passage` is a channel in use with all that it has handed out.
* `Passage.Underway` relates the two.  Every frame in the ledger has been handed out or, over the open connection, is
  on its way at the same place; `Passage.Underway.perform` is the step and `Passage.underway_run` the run.

The frames that are handed out bear the epoch of the channel at that moment, not one of their own.  They come out under
the right one because nothing is on its way over a connection that is broken, and the notices come out right before
the frames because they are handed out first.  Neither holds once the epochs have run out, which are 64 bits wide.
-/

namespace Tandem

/-- What can be done to a channel. -/
inductive ChannelCall where
  | connect
  | partition
  | send (sender : Role) (epoch : UInt64) (f : Frame) (now : Duration)
  | deliver (now : Duration)

/-- A frame that was sent over a connection. -/
structure Posting where
  sender : Role
  epoch : UInt64
  time : Duration
  frame : Frame

/-- A frame that arrives after what it takes, at least. -/
structure Posting.Reaches (latency : Duration) (p : Posting) (t : Transit) : Prop where
  frame : t.frame = p.frame
  due : p.time + latency ≤ t.arrival

/-! ## The ledger of the connections -/

/-- What the calls say of the connections of a channel. -/
structure Ledger where
  /-- How many connections have been broken. -/
  broken : Nat
  /-- Whether there is one more, which is open. -/
  isOpen : Bool
  /-- How many frames have been sent, over a connection or not. -/
  sent : Nat
  /-- The frames that were sent over the connection that was open at that moment. -/
  posted : List Posting

namespace Ledger

/-- Before the first connection. -/
def blank : Ledger := ⟨0, false, 0, []⟩

/-- How many connections have been opened. -/
def opened (l : Ledger) : Nat := l.broken + l.isOpen.toNat

/-- The epoch of the last connection. -/
def epoch (l : Ledger) : UInt64 := UInt64.ofNat l.opened

/-- Enters a call. -/
def enter (l : Ledger) : ChannelCall → Ledger
  | .connect => { l with isOpen := true }
  | .partition => { l with broken := l.opened, isOpen := false }
  | .send sender epoch f now =>
    { l with
      sent := l.sent + 1
      posted := if l.isOpen ∧ epoch = l.epoch then l.posted ++ [⟨sender, epoch, now, f⟩] else l.posted }
  | .deliver _ => l

/-- The ledger of some calls. -/
def ofCalls (calls : List ChannelCall) : Ledger := calls.foldl enter blank

/-- What was sent to an end over the connection of an epoch. -/
def postedTo (l : Ledger) (r : Role) (epoch : UInt64) : List Posting :=
  l.posted.filter (fun p => p.sender = r.other ∧ p.epoch = epoch)

/-- What an end is to be told: of each connection that it is there and that it is gone, in turn, under the epochs from
one. -/
def notices (l : Ledger) (r : Role) : List TransportEvent :=
  (List.range' 1 l.broken).flatMap (fun n =>
    [.connected (UInt64.ofNat n) r.other.simulatedAddress, .disconnected (UInt64.ofNat n) "partition"]) ++
  if l.isOpen then [.connected l.epoch r.other.simulatedAddress] else []

end Ledger

/-! ## A channel in use -/

namespace TransportEvent

/-- Whether an event is about a connection and not a frame that came over it. -/
def isNotice : TransportEvent → Bool
  | .frame _ _ => false
  | .connected _ _ | .disconnected _ _ => true

end TransportEvent

/-- The notices to an end among some events. -/
def Role.noticed (r : Role) (events : List (Role × TransportEvent)) : List TransportEvent :=
  (events.filter (fun x => x.1 = r ∧ x.2.isNotice)).map Prod.snd

/-- A channel in use. -/
structure Passage where
  channel : Channel
  /-- What has been handed out, in order and with the times. -/
  reports : List (Duration × Role × TransportEvent)

namespace Passage

/-- A channel before its first connection, which takes a fixed time. -/
def fresh (latency : Duration) : Passage := ⟨.new (.fixed latency), []⟩

/-- Carries out a call. -/
def perform (p : Passage) : ChannelCall → Passage
  | .connect => { p with channel := p.channel.connect }
  | .partition => { p with channel := p.channel.partition }
  | .send sender epoch f now => { p with channel := p.channel.send sender epoch f now }
  | .deliver now => ⟨(p.channel.deliver now).2, p.reports ++ (p.channel.deliver now).1.map (now, ·)⟩

/-- Carries out some calls. -/
def run (latency : Duration) (calls : List ChannelCall) : Passage := calls.foldl perform (fresh latency)

/-- What has been handed out, without the times. -/
def handed (p : Passage) : List (Role × TransportEvent) := p.reports.map Prod.snd

end Passage

/-- The frame that a report hands to an end under an epoch. -/
def carried? (r : Role) (epoch : UInt64) : Duration × Role × TransportEvent → Option Transit
  | (time, receiver, .frame e f) => if receiver = r ∧ e = epoch then some ⟨time, f⟩ else none
  | (_, _, .connected _ _) | (_, _, .disconnected _ _) => none

/-- The frames that have been handed to an end under an epoch, with the times. -/
def Passage.carriedTo (p : Passage) (r : Role) (epoch : UInt64) : List Transit := p.reports.filterMap (carried? r epoch)

/-- **What a channel promises**, given how long a frame takes and what the calls say of the connections. -/
structure Passage.Faithful (latency : Duration) (l : Ledger) (p : Passage) : Prop where
  /-- Under each epoch an end has got the front of what was sent to it over that connection. -/
  carried : ∀ r e, ∃ front, front <+: l.postedTo r e ∧ List.Forall₂ (Posting.Reaches latency) front (p.carriedTo r e)
  /-- What an end has been told, and will be told next, is what it is to be told. -/
  told : ∀ r, r.noticed p.handed ++ r.noticed p.channel.events = l.notices r
  /-- No frame is handed out once an end was told that its connection is gone. -/
  final : p.handed.Pairwise fun a b => ∀ e reason f, a.2 = .disconnected e reason → b.2 ≠ .frame e f
  /-- No frame is lost without being counted. -/
  counted : p.channel.stats.sent = p.channel.stats.delivered + p.channel.stats.dropped +
    (p.channel.inFlight.host.size + p.channel.inFlight.guest.size)
  sent : p.channel.stats.sent = l.sent
  delivered : p.channel.stats.delivered = p.handed.countP (fun x => !x.2.isNotice)

/-! ## What a call does to a channel -/

theorem Duration.le_longer (a b : Duration) : a ≤ a.longer b := by
  unfold longer
  split
  · assumption
  · exact Nat.le_refl _

theorem Posting.Reaches.taken {latency : Duration} {p : Posting} {t : Transit} {now : Duration}
    (h : p.Reaches latency t) (arrived : t.arrival ≤ now) : p.Reaches latency ⟨now, t.frame⟩ :=
  ⟨h.frame, Nat.le_trans h.due arrived⟩

/-- Of the frames on their way the front ones are taken, and the rest stays. -/
theorem reaches_taken {latency : Duration} (now : Duration) {sent : List Posting} {flight : List Transit}
    (h : List.Forall₂ (Posting.Reaches latency) sent flight) : ∃ front rest, sent = front ++ rest ∧
      List.Forall₂ (Posting.Reaches latency) front
        ((flight.takeWhile (fun t => t.arrival ≤ now)).map (fun t => ⟨now, t.frame⟩)) ∧
      List.Forall₂ (Posting.Reaches latency) rest (flight.dropWhile (fun t => t.arrival ≤ now)) := by
  induction h with
  | nil => exact ⟨[], [], rfl, .nil, .nil⟩
  | @cons p t sent flight reaches whole ih =>
    by_cases arrived : t.arrival ≤ now
    · obtain ⟨front, rest, split, taken, stays⟩ := ih
      refine ⟨p :: front, rest, congrArg (p :: ·) split, ?_, ?_⟩
      · rw [List.takeWhile_cons, if_pos (decide_eq_true arrived), List.map_cons]
        exact .cons (reaches.taken arrived) taken
      · rw [List.dropWhile_cons, if_pos (decide_eq_true arrived)]
        exact stays
    · have notYet : ¬ decide (t.arrival ≤ now) = true := by rwa [decide_eq_true_eq]
      refine ⟨[], p :: sent, rfl, ?_, ?_⟩
      · rw [List.takeWhile_cons, if_neg notYet]
        exact .nil
      · rw [List.dropWhile_cons, if_neg notYet]
        exact .cons reaches whole

namespace Channel

variable {c : Channel} {latency now : Duration}

/-- A frame does not arrive before its time, whatever is on the way before it. -/
theorem due_le_arrivalAfter (config : c.config = .fixed latency) (queue : Fifo Transit) :
    now + latency ≤ c.arrivalAfter queue now := by
  have due : now + (c.config.latency + c.config.jitter) = now + latency := by
    rw [config]
    rfl
  unfold arrivalAfter
  rw [due]
  cases queue.newest? with
  | none => exact Nat.le_refl _
  | some last => exact (now + latency).le_longer last.arrival

theorem connect_of_open (isOpen : c.connected = true) : c.connect = c := if_pos isOpen

theorem connect_of_closed (closed : c.connected = false) : c.connect = { c with
    epoch := c.epoch + 1
    connected := true
    events := c.events ++ [(.host, .connected (c.epoch + 1) Role.guest.simulatedAddress),
      (.guest, .connected (c.epoch + 1) Role.host.simulatedAddress)] } :=
  if_neg (by rw [closed]; exact Bool.false_ne_true)

theorem partition_of_closed (closed : c.connected = false) : c.partition = c := if_pos (by rw [closed]; rfl)

theorem partition_of_open (isOpen : c.connected = true) : c.partition = { c with
    connected := false
    inFlight := ⟨.empty, .empty⟩
    events := c.events ++ [(.host, .disconnected c.epoch "partition"), (.guest, .disconnected c.epoch "partition")]
    stats := { c.stats with
      partitions := c.stats.partitions + 1
      dropped := c.stats.dropped + c.inFlight.host.size + c.inFlight.guest.size } } :=
  if_neg (by rw [isOpen]; exact Bool.false_ne_true)

/-- A frame that is not sent over the open connection is lost. -/
theorem send_lost {epoch : UInt64} (lost : ¬ (c.connected = true ∧ epoch = c.epoch)) (sender : Role) (f : Frame) :
    c.send sender epoch f now = { c with
      stats := { c.stats with sent := c.stats.sent + 1, dropped := c.stats.dropped + 1 } } := by
  have refused : (!c.connected || decide (epoch ≠ c.epoch)) = true := by
    cases connected : c.connected with
    | false => rfl
    | true => simpa [connected] using lost
  exact if_pos refused

/-- A frame that is sent over the open connection is on its way, behind the others. -/
theorem send_over {epoch : UInt64} (config : c.config = .fixed latency) (connected : c.connected = true)
    (current : c.epoch = epoch) (sender : Role) (f : Frame) (now : Duration) :
    ∃ arrival, now + latency ≤ arrival ∧ c.send sender epoch f now = { c with
      inFlight := c.inFlight.set sender.other ((c.inFlight.get sender.other).push ⟨arrival, f⟩)
      stats := { c.stats with sent := c.stats.sent + 1 } } := by
  have accepted : ¬ (!c.connected || decide (epoch ≠ c.epoch)) = true := by
    rw [connected, current]
    simp
  have once : ¬ c.config.repeats = true := by
    rw [config]
    exact Bool.false_ne_true
  exact ⟨_, due_le_arrivalAfter config _, (if_neg accepted).trans (if_neg once)⟩

/-- What a channel hands out of the frames on their way to an end. -/
def due (c : Channel) (r : Role) (now : Duration) : List Transit :=
  (c.inFlight.get r).toList.takeWhile (fun t => t.arrival ≤ now)

/-- The events of a delivery: the notices, then the frames to the host and the frames to the guest. -/
theorem events_deliver (c : Channel) (now : Duration) : (c.deliver now).1 = c.events ++
    ((c.due .host now).map (fun t => (Role.host, .frame c.epoch t.frame)) ++
      (c.due .guest now).map (fun t => (Role.guest, .frame c.epoch t.frame))) := by
  rw [← List.append_assoc]
  rfl

theorem flight_deliver (c : Channel) (now : Duration) (r : Role) : ((c.deliver now).2.inFlight.get r).toList =
    (c.inFlight.get r).toList.dropWhile (fun t => t.arrival ≤ now) := by
  cases r with
  | host | guest => exact Fifo.toList_dropWhile _ _

/-- What is on the way, in either direction. -/
def load (c : Channel) : Nat := (c.inFlight.get .host).toList.length + (c.inFlight.get .guest).toList.length

theorem load_eq_sizes (c : Channel) : c.load = c.inFlight.host.size + c.inFlight.guest.size := by
  rw [Fifo.size_eq_length, Fifo.size_eq_length]
  rfl

theorem load_push (c : Channel) (r : Role) (t : Transit) :
    { c with inFlight := c.inFlight.set r ((c.inFlight.get r).push t) }.load = c.load + 1 := by
  unfold load
  cases r <;> simp [Ends.get, Ends.set] <;> omega

theorem load_deliver (c : Channel) (now : Duration) :
    c.load = (c.due .host now).length + (c.due .guest now).length + (c.deliver now).2.load := by
  have parts : ∀ r, (c.inFlight.get r).toList.length =
      (c.due r now).length + ((c.deliver now).2.inFlight.get r).toList.length := by
    intro r
    rw [flight_deliver, due, ← List.length_append, List.takeWhile_append_dropWhile]
  unfold load
  rw [parts .host, parts .guest]
  omega

end Channel

/-! ## What a delivery adds to the reports -/

theorem Role.noticed_append (r : Role) (events later : List (Role × TransportEvent)) :
    r.noticed (events ++ later) = r.noticed events ++ r.noticed later := by
  rw [noticed, List.filter_append, List.map_append]
  rfl

/-- Frames that are handed out to an end. -/
def Role.handing (r : Role) (epoch : UInt64) (frames : List Transit) : List (Role × TransportEvent) :=
  frames.map (fun t => (r, .frame epoch t.frame))

namespace Role

variable {r s : Role} {epoch e : UInt64} {now : Duration} (frames : List Transit)

theorem noticed_handing : r.noticed (s.handing epoch frames) = [] := by
  rw [noticed, List.map_eq_nil_iff, List.filter_eq_nil_iff]
  intro x mem
  obtain ⟨t, -, rfl⟩ := List.mem_map.mp mem
  simp [TransportEvent.isNotice]

theorem countP_handing : (s.handing epoch frames).countP (fun x => !x.2.isNotice) = frames.length := by
  rw [handing, List.countP_map, List.countP_eq_length.mpr]
  intro t mem
  rfl

theorem carried_handing : ((s.handing epoch frames).map (now, ·)).filterMap (carried? r e) =
    if s = r ∧ epoch = e then frames.map (fun t => ⟨now, t.frame⟩) else [] := by
  rw [handing, List.map_map, List.filterMap_map]
  by_cases same : s = r ∧ epoch = e
  · rw [if_pos same, ← List.filterMap_eq_map]
    exact List.filterMap_congr fun t _ => if_pos same
  · rw [if_neg same, List.filterMap_eq_nil_iff]
    exact fun t _ => if_neg same

theorem exists_of_mem_handings (framesTo : Role → List Transit) {x : Role × TransportEvent}
    (mem : x ∈ Role.host.handing epoch (framesTo .host) ++ Role.guest.handing epoch (framesTo .guest)) :
    ∃ r, ∃ t ∈ framesTo r, x = (r, .frame epoch t.frame) := by
  rcases List.mem_append.mp mem with here | here
  all_goals
    obtain ⟨t, among, rfl⟩ := List.mem_map.mp here
    exact ⟨_, t, among, rfl⟩

end Role

namespace Passage

variable {p : Passage} {r : Role} {e : UInt64} {now : Duration}

/-- All that a delivery hands out. -/
def arriving (p : Passage) (now : Duration) : List (Role × TransportEvent) :=
  p.channel.events ++ (Role.host.handing p.channel.epoch (p.channel.due .host now) ++
    Role.guest.handing p.channel.epoch (p.channel.due .guest now))

theorem handed_deliver (p : Passage) (now : Duration) :
    (p.perform (.deliver now)).handed = p.handed ++ p.arriving now := by
  show (p.reports ++ (p.channel.deliver now).1.map (now, ·)).map Prod.snd = _
  rw [List.map_append, List.map_map, Channel.events_deliver]
  exact congrArg (p.handed ++ ·) (List.map_id _)

theorem noticed_deliver (p : Passage) (now : Duration) (r : Role) :
    r.noticed (p.perform (.deliver now)).handed = r.noticed p.handed ++ r.noticed p.channel.events := by
  rw [handed_deliver, arriving, Role.noticed_append, Role.noticed_append, Role.noticed_append, Role.noticed_handing,
    Role.noticed_handing, List.append_nil, List.append_nil]

theorem carriedTo_deliver (pending : ∀ x ∈ p.channel.events, x.2.isNotice = true) :
    (p.perform (.deliver now)).carriedTo r e = p.carriedTo r e ++
      if p.channel.epoch = e then (p.channel.due r now).map (fun t => ⟨now, t.frame⟩) else [] := by
  have notices : (p.channel.events.map (now, ·)).filterMap (carried? r e) = [] := by
    rw [List.filterMap_eq_nil_iff]
    intro x mem
    obtain ⟨⟨receiver, event⟩, told, rfl⟩ := List.mem_map.mp mem
    have notice := pending _ told
    cases event with
    | frame => cases notice
    | connected | disconnected => rfl
  show (p.reports ++ (p.channel.deliver now).1.map (now, ·)).filterMap (carried? r e) = _
  rw [List.filterMap_append, Channel.events_deliver, List.map_append, List.filterMap_append, notices,
    List.nil_append, List.map_append, List.filterMap_append]
  refine congrArg (p.carriedTo r e ++ ·) ?_
  refine (congrArg₂ (· ++ ·) (Role.carried_handing _) (Role.carried_handing _)).trans ?_
  cases r <;> simp

theorem frames_deliver (pending : ∀ x ∈ p.channel.events, x.2.isNotice = true) :
    (p.perform (.deliver now)).handed.countP (fun x => !x.2.isNotice) =
      p.handed.countP (fun x => !x.2.isNotice) +
        ((p.channel.due .host now).length + (p.channel.due .guest now).length) := by
  have notices : p.channel.events.countP (fun x => !x.2.isNotice) = 0 := by
    rw [List.countP_eq_zero]
    intro x mem
    rw [pending x mem]
    exact Bool.false_ne_true
  rw [handed_deliver, arriving, List.countP_append, List.countP_append, List.countP_append, Role.countP_handing,
    Role.countP_handing, notices, Nat.zero_add]

end Passage

/-! ## Under way -/

namespace Ledger

variable {l : Ledger} {n : Nat} {r : Role}

theorem opened_le_enter (l : Ledger) (c : ChannelCall) : l.opened ≤ (l.enter c).opened := by
  cases c with
  | connect => exact Nat.add_le_add_left (Bool.toNat_le l.isOpen) l.broken
  | partition | send | deliver => exact Nat.le_refl _

/-- The epochs of two connections differ, as long as there are epochs left. -/
theorem epoch_ne (few : l.opened < UInt64.size) (earlier : n < l.opened) : l.epoch ≠ UInt64.ofNat n := by
  intro same
  have numbers : l.opened % UInt64.size = n % UInt64.size := congrArg UInt64.toNat same
  rw [Nat.mod_eq_of_lt few, Nat.mod_eq_of_lt (Nat.lt_trans earlier few)] at numbers
  exact Nat.lt_irrefl n (numbers ▸ earlier)

/-- An end is told that a connection is gone only when it is. -/
theorem broken_of_mem_notices {reason : String} {e : UInt64} (mem : .disconnected e reason ∈ l.notices r) :
    ∃ n ≤ l.broken, e = UInt64.ofNat n := by
  rcases List.mem_append.mp mem with past | present
  · obtain ⟨n, between, mem⟩ := List.mem_flatMap.mp past
    have bounds := List.mem_range'_1.mp between
    simp only [List.mem_cons, List.not_mem_nil, or_false, reduceCtorEq, false_or,
      TransportEvent.disconnected.injEq] at mem
    exact ⟨n, by omega, mem.1⟩
  · split at present
    · simp at present
    · exact absurd present List.not_mem_nil

theorem postedTo_eq_nil {e : UInt64} (none : ∀ x ∈ l.posted, x.epoch ≠ e) : l.postedTo r e = [] := by
  rw [postedTo, List.filter_eq_nil_iff]
  intro x mem
  rw [decide_eq_true_eq]
  exact fun both => none x mem both.2

/-- A frame is sent to the other end. -/
theorem postedTo_append (l : Ledger) (sent : Nat) (x : Posting) (r : Role) (e : UInt64) :
    { l with sent := sent, posted := l.posted ++ [x] }.postedTo r e =
      l.postedTo r e ++ if x.sender = r.other ∧ x.epoch = e then [x] else [] := by
  rw [postedTo, List.filter_append, List.filter_singleton, Bool.cond_decide]
  rfl

theorem enter_connect_of_open (isOpen : l.isOpen = true) : l.enter .connect = l := by
  obtain ⟨broken, _, sent, posted⟩ := l
  cases isOpen
  rfl

theorem enter_partition_of_closed (closed : l.isOpen = false) : l.enter .partition = l := by
  obtain ⟨broken, _, sent, posted⟩ := l
  cases closed
  rfl

/-- The next connection is announced. -/
theorem notices_connect (closed : l.isOpen = false) (r : Role) : (l.enter .connect).notices r =
    l.notices r ++ [.connected (l.epoch + 1) r.other.simulatedAddress] := by
  obtain ⟨broken, _, sent, posted⟩ := l
  cases closed
  have next : (UInt64.ofNat broken + 1 : UInt64) = UInt64.ofNat (broken + 1) := (UInt64.ofNat_add broken 1).symm
  show _ ++ [_] = (_ ++ []) ++ [TransportEvent.connected (UInt64.ofNat broken + 1) r.other.simulatedAddress]
  rw [List.append_nil, next]
  rfl

/-- The connection that was open is declared gone. -/
theorem notices_partition (isOpen : l.isOpen = true) (r : Role) : (l.enter .partition).notices r =
    l.notices r ++ [.disconnected l.epoch "partition"] := by
  obtain ⟨broken, _, sent, posted⟩ := l
  cases isOpen
  show (List.range' 1 (broken + 1)).flatMap _ ++ [] = (_ ++ [_]) ++ [_]
  rw [List.range'_1_concat, List.flatMap_append, List.flatMap_singleton, List.append_nil, List.append_assoc,
    Nat.add_comm 1 broken]
  rfl

end Ledger

/-- What holds of a channel in use and the ledger of its calls. -/
structure Passage.Underway (latency : Duration) (l : Ledger) (p : Passage) : Prop where
  config : p.channel.config = .fixed latency
  connected : p.channel.connected = l.isOpen
  epoch : p.channel.epoch = l.epoch
  /-- Nothing is on its way without a connection. -/
  lost : l.isOpen = false → ∀ r, (p.channel.inFlight.get r).toList = []
  pending : ∀ x ∈ p.channel.events, x.2.isNotice = true
  numbered : ∀ x ∈ l.posted, ∃ n ≤ l.opened, x.epoch = UInt64.ofNat n
  /-- What was sent to an end has been handed out or, over the open connection, is on its way. -/
  carried : ∀ r e, ∃ front rest, l.postedTo r e = front ++ rest ∧
    List.Forall₂ (Posting.Reaches latency) front (p.carriedTo r e) ∧
    (l.isOpen = true → e = l.epoch →
      List.Forall₂ (Posting.Reaches latency) rest (p.channel.inFlight.get r).toList)
  told : ∀ r, r.noticed p.handed ++ r.noticed p.channel.events = l.notices r
  final : p.handed.Pairwise fun a b => ∀ e reason f, a.2 = .disconnected e reason → b.2 ≠ .frame e f
  counted : p.channel.stats.sent = p.channel.stats.delivered + p.channel.stats.dropped + p.channel.load
  sent : p.channel.stats.sent = l.sent
  delivered : p.channel.stats.delivered = p.handed.countP (fun x => !x.2.isNotice)

namespace Passage.Underway

variable {latency : Duration} {l : Ledger} {p : Passage}

theorem fresh (latency : Duration) : (Passage.fresh latency).Underway latency .blank where
  config := rfl
  connected := rfl
  epoch := rfl
  lost _ r := by cases r <;> rfl
  pending x mem := absurd mem List.not_mem_nil
  numbered x mem := absurd mem List.not_mem_nil
  carried r e := ⟨[], [], rfl, .nil, nofun⟩
  told r := rfl
  final := .nil
  counted := rfl
  sent := rfl
  delivered := rfl

theorem faithful (h : p.Underway latency l) : p.Faithful latency l where
  carried r e := by
    obtain ⟨front, rest, split, reaches, -⟩ := h.carried r e
    exact ⟨front, ⟨rest, split.symm⟩, reaches⟩
  told := h.told
  final := h.final
  counted := by rw [h.counted, Channel.load_eq_sizes]
  sent := h.sent
  delivered := h.delivered

theorem connect (h : p.Underway latency l) (few : (l.enter .connect).opened < UInt64.size) :
    (p.perform .connect).Underway latency (l.enter .connect) := by
  have channel : p.perform .connect = { p with channel := p.channel.connect } := rfl
  rw [channel]
  cases isOpen : l.isOpen with
  | true =>
    rw [Channel.connect_of_open (h.connected.trans isOpen), Ledger.enter_connect_of_open isOpen]
    exact h
  | false =>
    have opened : (l.enter .connect).opened = l.opened + 1 := by
      rw [Ledger.opened, Ledger.opened, isOpen]
      rfl
    have epoch : (l.enter .connect).epoch = l.epoch + 1 := by
      rw [Ledger.epoch, opened]
      exact UInt64.ofNat_add l.opened 1
    rw [Channel.connect_of_closed (h.connected.trans isOpen)]
    refine ⟨h.config, rfl, ?_, nofun, ?_, ?_, ?_, ?_, h.final, h.counted, h.sent, h.delivered⟩
    · rw [epoch, ← h.epoch]
    · exact List.forall_mem_append.mpr ⟨h.pending, by simp [TransportEvent.isNotice]⟩
    · intro x mem
      obtain ⟨n, upTo, same⟩ := h.numbered x mem
      exact ⟨n, by omega, same⟩
    · intro r e
      obtain ⟨front, rest, split, reaches, -⟩ := h.carried r e
      refine ⟨front, rest, split, reaches, fun _ current => ?_⟩
      -- Nothing has been sent over the connection yet, and nothing is on its way.
      have unused : l.postedTo r e = [] := by
        refine Ledger.postedTo_eq_nil fun x mem same => ?_
        obtain ⟨n, upTo, number⟩ := h.numbered x mem
        exact Ledger.epoch_ne few (by omega) (current.symm.trans (same.symm.trans number))
      rw [(List.append_eq_nil_iff.mp (split.symm.trans unused)).2, h.lost isOpen r]
      exact .nil
    · intro r
      show r.noticed p.handed ++ r.noticed (p.channel.events ++ _) = _
      rw [Role.noticed_append, ← List.append_assoc, h.told, Ledger.notices_connect isOpen, h.epoch]
      cases r <;> rfl

theorem partition (h : p.Underway latency l) : (p.perform .partition).Underway latency (l.enter .partition) := by
  have channel : p.perform .partition = { p with channel := p.channel.partition } := rfl
  rw [channel]
  cases isOpen : l.isOpen with
  | false =>
    rw [Channel.partition_of_closed (h.connected.trans isOpen), Ledger.enter_partition_of_closed isOpen]
    exact h
  | true =>
    rw [Channel.partition_of_open (h.connected.trans isOpen)]
    refine ⟨h.config, rfl, h.epoch, ?_, ?_, h.numbered, ?_, ?_, h.final, ?_, h.sent, h.delivered⟩
    · intro _ r
      cases r <;> rfl
    · exact List.forall_mem_append.mpr ⟨h.pending, by simp [TransportEvent.isNotice]⟩
    · intro r e
      obtain ⟨front, rest, split, reaches, -⟩ := h.carried r e
      exact ⟨front, rest, split, reaches, nofun⟩
    · intro r
      show r.noticed p.handed ++ r.noticed (p.channel.events ++ _) = _
      rw [Role.noticed_append, ← List.append_assoc, h.told, Ledger.notices_partition isOpen, h.epoch]
      cases r <;> rfl
    · have counted := h.counted
      rw [Channel.load_eq_sizes] at counted
      show p.channel.stats.sent = p.channel.stats.delivered +
        (p.channel.stats.dropped + p.channel.inFlight.host.size + p.channel.inFlight.guest.size) + 0
      omega

theorem send_lost {sender : Role} {epoch : UInt64} {f : Frame} {now : Duration} (h : p.Underway latency l)
    (lost : ¬ (l.isOpen = true ∧ epoch = l.epoch)) :
    (p.perform (.send sender epoch f now)).Underway latency (l.enter (.send sender epoch f now)) := by
  have channel : p.perform (.send sender epoch f now) =
    { p with channel := p.channel.send sender epoch f now } := rfl
  have ledger : l.enter (.send sender epoch f now) = { l with sent := l.sent + 1 } := by
    show { l with sent := l.sent + 1, posted := _ } = _
    rw [if_neg lost]
  rw [← h.connected, ← h.epoch] at lost
  rw [channel, Channel.send_lost lost, ledger]
  refine ⟨h.config, h.connected, h.epoch, h.lost, h.pending, h.numbered, h.carried, h.told, h.final, ?_, ?_,
    h.delivered⟩
  · have counted := h.counted
    show p.channel.stats.sent + 1 = p.channel.stats.delivered + (p.channel.stats.dropped + 1) + p.channel.load
    omega
  · exact congrArg (· + 1) h.sent

theorem send_over (h : p.Underway latency l) (isOpen : l.isOpen = true) (sender : Role) (f : Frame)
    (now : Duration) :
    (p.perform (.send sender l.epoch f now)).Underway latency (l.enter (.send sender l.epoch f now)) := by
  obtain ⟨arrival, due, sends⟩ := Channel.send_over h.config (h.connected.trans isOpen) h.epoch sender f now
  have channel : p.perform (.send sender l.epoch f now) =
    { p with channel := p.channel.send sender l.epoch f now } := rfl
  have ledger : l.enter (.send sender l.epoch f now) =
      { l with sent := l.sent + 1, posted := l.posted ++ [⟨sender, l.epoch, now, f⟩] } := by
    show { l with sent := l.sent + 1, posted := _ } = _
    rw [if_pos ⟨isOpen, rfl⟩]
  rw [channel, sends, ledger]
  refine ⟨h.config, h.connected, h.epoch, ?_, h.pending, ?_, ?_, h.told, h.final, ?_, ?_, h.delivered⟩
  · exact fun closed => absurd (isOpen.symm.trans closed) Bool.false_ne_true.symm
  · refine List.forall_mem_append.mpr ⟨h.numbered, fun x mem => ?_⟩
    rw [List.mem_singleton.mp mem]
    exact ⟨l.opened, Nat.le_refl _, rfl⟩
  · intro r e
    obtain ⟨front, rest, split, reaches, flying⟩ := h.carried r e
    have posted := l.postedTo_append (l.sent + 1) ⟨sender, l.epoch, now, f⟩ r e
    refine ⟨front, _, by rw [posted, split, List.append_assoc], reaches, fun isOpen current => ?_⟩
    have flying := flying isOpen current
    show List.Forall₂ _ _ ((p.channel.inFlight.set sender.other _).get r).toList
    by_cases toHere : sender = r.other
    · have receiver : sender.other = r := by rw [toHere, Role.other_other]
      rw [if_pos ⟨toHere, current.symm⟩, receiver, Ends.get_set_self, Fifo.toList_push]
      exact List.rel_append flying (.cons ⟨rfl, due⟩ .nil)
    · have receiver : sender.other ≠ r := fun same => toHere (by rw [← same, Role.other_other])
      rw [if_neg (fun both => toHere both.1), List.append_nil, Ends.get_set, if_neg receiver]
      exact flying
  · have load := p.channel.load_push sender.other ⟨arrival, f⟩
    have counted := h.counted
    show p.channel.stats.sent + 1 = p.channel.stats.delivered + p.channel.stats.dropped +
      { p.channel with inFlight := p.channel.inFlight.set sender.other _ }.load
    rw [load]
    omega
  · exact congrArg (· + 1) h.sent

theorem send (h : p.Underway latency l) (sender : Role) (epoch : UInt64) (f : Frame) (now : Duration) :
    (p.perform (.send sender epoch f now)).Underway latency (l.enter (.send sender epoch f now)) := by
  by_cases present : l.isOpen = true ∧ epoch = l.epoch
  · obtain ⟨isOpen, rfl⟩ := present
    exact h.send_over isOpen sender f now
  · exact h.send_lost present

theorem due_eq_nil (h : p.Underway latency l) (closed : l.isOpen = false) (r : Role) (now : Duration) :
    p.channel.due r now = [] := by
  rw [Channel.due, h.lost closed r]
  rfl

/-- Only a connection that is broken is declared gone. -/
theorem broken_of_told (h : p.Underway latency l) {a : Role × TransportEvent}
    (mem : a ∈ p.handed ++ p.channel.events) {e : UInt64} {reason : String} (gone : a.2 = .disconnected e reason) :
    ∃ n ≤ l.broken, e = UInt64.ofNat n := by
  obtain ⟨r, event⟩ := a
  cases gone
  have noticed : .disconnected e reason ∈ l.notices r := by
    rw [← h.told r, ← Role.noticed_append]
    exact List.mem_map.mpr ⟨_, List.mem_filter.mpr ⟨mem, by simp [TransportEvent.isNotice]⟩, rfl⟩
  exact Ledger.broken_of_mem_notices noticed

/-- Only over an open connection do frames arrive, and they come under its epoch. -/
theorem epoch_of_arriving (h : p.Underway latency l) {now : Duration} {b : Role × TransportEvent}
    (mem : b ∈ p.arriving now) {e : UInt64} {f : Frame} (frame : b.2 = .frame e f) :
    l.isOpen = true ∧ e = l.epoch := by
  rcases List.mem_append.mp mem with notice | arrived
  · have quiet := h.pending b notice
    rw [frame] at quiet
    cases quiet
  · obtain ⟨r, t, due, rfl⟩ := Role.exists_of_mem_handings (fun r => p.channel.due r now) arrived
    cases frame
    refine ⟨?_, h.epoch⟩
    cases isOpen : l.isOpen with
    | true => rfl
    | false =>
      rw [h.due_eq_nil isOpen r now] at due
      exact absurd due List.not_mem_nil

theorem deliver (h : p.Underway latency l) (few : l.opened < UInt64.size) (now : Duration) :
    (p.perform (.deliver now)).Underway latency l := by
  refine ⟨h.config, h.connected, h.epoch, ?_, nofun, h.numbered, ?_, ?_, ?_, ?_, h.sent, ?_⟩
  · intro closed r
    show ((p.channel.deliver now).2.inFlight.get r).toList = []
    rw [Channel.flight_deliver, h.lost closed r]
    rfl
  · intro r e
    obtain ⟨front, rest, split, reaches, flying⟩ := h.carried r e
    rw [carriedTo_deliver h.pending]
    show ∃ front rest, _ ∧ _ ∧ (_ → _ → List.Forall₂ _ _ ((p.channel.deliver now).2.inFlight.get r).toList)
    rw [Channel.flight_deliver]
    by_cases present : p.channel.epoch = e
    · rw [if_pos present]
      cases isOpen : l.isOpen with
      | false =>
        rw [h.due_eq_nil isOpen r now, List.map_nil, List.append_nil]
        exact ⟨front, rest, split, reaches, fun opens => absurd opens Bool.false_ne_true⟩
      | true =>
        obtain ⟨taken, stays, parts, arrive, fly⟩ :=
          reaches_taken now (flying isOpen (present.symm.trans h.epoch))
        refine ⟨front ++ taken, stays, ?_, List.rel_append reaches arrive, fun _ _ => fly⟩
        rw [split, parts, List.append_assoc]
    · rw [if_neg present, List.append_nil]
      exact ⟨front, rest, split, reaches, fun _ current => absurd (h.epoch.trans current.symm) present⟩
  · intro r
    rw [noticed_deliver]
    exact (List.append_nil _).trans (h.told r)
  · have apart : ∀ a ∈ p.handed ++ p.channel.events, ∀ b ∈ p.arriving now, ∀ e reason f,
        a.2 = .disconnected e reason → b.2 ≠ .frame e f := by
      intro a told b mem e reason f gone frame
      obtain ⟨n, upTo, past⟩ := h.broken_of_told told gone
      obtain ⟨isOpen, present⟩ := h.epoch_of_arriving mem frame
      have later : n < l.opened := by
        rw [Ledger.opened, isOpen]
        exact Nat.lt_succ_of_le upTo
      exact Ledger.epoch_ne few later (present.symm.trans past)
    rw [handed_deliver, List.pairwise_append]
    refine ⟨h.final, List.pairwise_of_forall_mem_list fun a old b mem => ?_, fun a old b mem => ?_⟩
    · rcases List.mem_append.mp old with notice | frame
      · exact apart a (List.mem_append_right _ notice) b mem
      · obtain ⟨r, t, -, rfl⟩ := Role.exists_of_mem_handings (fun r => p.channel.due r now) frame
        exact nofun
    · exact apart a (List.mem_append_left _ old) b mem
  · have counted := h.counted
    rw [p.channel.load_deliver now] at counted
    show p.channel.stats.sent =
      p.channel.stats.delivered + (p.channel.due .host now).length + (p.channel.due .guest now).length +
        p.channel.stats.dropped + (p.channel.deliver now).2.load
    omega
  · rw [frames_deliver h.pending, ← h.delivered]
    exact Nat.add_assoc _ _ _

/-- **What a call does** to a channel in use is what it does to the ledger. -/
theorem perform (h : p.Underway latency l) (c : ChannelCall) (few : (l.enter c).opened < UInt64.size) :
    (p.perform c).Underway latency (l.enter c) := by
  cases c with
  | connect => exact h.connect few
  | partition => exact h.partition
  | send sender epoch f now => exact h.send sender epoch f now
  | deliver now => exact h.deliver few now

end Passage.Underway

namespace Passage

theorem underway_run (latency : Duration) (calls : List ChannelCall)
    (few : (Ledger.ofCalls calls).opened < UInt64.size) :
    (run latency calls).Underway latency (Ledger.ofCalls calls) := by
  induction calls using List.reverseRecOn with
  | nil => exact .fresh latency
  | append_singleton calls c ih =>
    have ledger : Ledger.ofCalls (calls ++ [c]) = (Ledger.ofCalls calls).enter c := List.foldl_append
    have passage : run latency (calls ++ [c]) = (run latency calls).perform c := List.foldl_append
    rw [ledger] at few ⊢
    rw [passage]
    exact (ih (Nat.lt_of_le_of_lt (Ledger.opened_le_enter _ c) few)).perform c few

/-- **A channel is a faithful stream**, whatever is done to it and at whatever times, as long as there are epochs
left. -/
theorem faithful_run (latency : Duration) (calls : List ChannelCall)
    (few : (Ledger.ofCalls calls).opened < UInt64.size) :
    (run latency calls).Faithful latency (Ledger.ofCalls calls) :=
  (underway_run latency calls few).faithful

/-- A frame of the examples, told from others by its number. -/
def parcel (seq : UInt64) : Frame := ⟨⟨wireVersion, .sessionControl, .none, ⟨1⟩, ⟨1⟩, seq, 0, 0⟩, []⟩

/-- A connection breaks with a frame on its way, and another one is opened before anyone is told.  The times go back,
and a frame is sent under an epoch that is over. -/
def rerouted : List ChannelCall :=
  [.connect, .send .host 1 (parcel 1) ⟨5⟩, .send .host 1 (parcel 2) ⟨3⟩, .deliver ⟨12⟩, .send .host 1 (parcel 3) ⟨12⟩,
    .partition, .connect, .send .host 1 (parcel 4) ⟨13⟩, .send .host 2 (parcel 5) ⟨13⟩, .deliver ⟨40⟩]

theorem faithful_run_rerouted :
    (run ⟨7⟩ rerouted).carriedTo .guest 1 = [⟨⟨12⟩, parcel 1⟩, ⟨⟨12⟩, parcel 2⟩] ∧
      (run ⟨7⟩ rerouted).carriedTo .guest 2 = [⟨⟨40⟩, parcel 5⟩] ∧
      (run ⟨7⟩ rerouted).channel.stats.dropped = 2 ∧
      (run ⟨7⟩ rerouted).Faithful ⟨7⟩ (Ledger.ofCalls rerouted) :=
  ⟨rfl, rfl, rfl, faithful_run ⟨7⟩ rerouted (by decide)⟩

end Passage

end Tandem
