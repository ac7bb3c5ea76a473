/-
Btwattch2.StreamTheorems — the shared stream, whatever is interleaved with it.

A subscription runs from the moment it is put in place to the moment it is
replaced or dropped. `current` reads off the log what the subscription in place
has received, which is what the run was handed (`AllFed`), and what has been taken
out of the assembler since. The law (`StreamLaw`) is that the two always account for
each other and for what is left in the buffer, that a measurement is broadcast right
after the frame was taken, and nothing else ever is, and that the clients are what
their operations made of them. It is a stable invariant, so every run keeps it
(`stream_run`).
-/
import Btwattch2.Lib.Log
import Btwattch2.ReceivedTheorems

namespace Btwattch2

open Lib

/-! ## Reading the log -/

/-- What a subscription has received, and what was taken out of the assembler. -/
structure Live where
  rx : List UInt8
  took : List (List UInt8)
  deriving DecidableEq, Repr

/-- The subscription in place after one more observation. -/
def Live.after : Option Live → Obs → Option Live
  | _, .opened => some ⟨[], []⟩
  | _, .closed _ => none
  | live, .rx value => live.map fun l => { l with rx := l.rx ++ value }
  | live, .took frame _ => live.map fun l => { l with took := l.took ++ [frame] }
  | live, _ => live

/-- The subscription in place at the end of a log. -/
def current (log : List Obs) : Option Live := log.foldl Live.after none

/-- What was taken, followed by what a final drain would yield, is what a fresh
assembler yields on everything received, and leaves the same residue. -/
def Live.Accounts (l : Live) (buf : List UInt8) : Prop :=
  (FrameAssembler.new.feed l.rx).drain =
    (l.took ++ (FrameAssembler.mk buf).drain.1, (FrameAssembler.mk buf).drain.2)

def Obs.broadcastOf : Obs → Option Response
  | .clients (.broadcast response) => some response
  | _ => none

/-- What one more observation does to the clients. -/
def Obs.replay (clients : Clients) : Obs → Clients
  | .clients op => clients.apply op
  | .meanwhile acts => clients.run (acts.map fun x => .act x.1 x.2)
  | .reply tx response =>
    { clients with chans :=
        Function.update clients.chans tx ((clients.chans tx).trySend response).2 }
  | _ => clients

/-- The list and the queues: the clients but for the counters. -/
def Clients.fan (clients : Clients) : List ClientId × (ClientId → Chan) :=
  (clients.list, clients.chans)

section Zone

variable (chrono : Chrono)

/-- The broadcast that is due after an observation: the measurement in a frame
that was taken, unless it answers the request that waited for it. -/
def owed (o : Obs) : Option Response :=
  match o with
  | .took _ (.reply .measurement) => none
  | .took frame _ => (tryMeasurement chrono frame).map .fromMeasurement
  | _ => none

/-- The broadcast that is due at the end of a log. -/
def due (log : List Obs) : Option Response := log.getLast?.bind (owed chrono)

/-- The law of the shared stream, for a log and the state it leads to. -/
structure StreamLaw (start : Clients) (log : List Obs) (a : Actor) : Prop where
  /-- When a subscription is replaced or dropped, its frames are accounted for. -/
  closed : Always (fun pre o => ∀ buf, o = .closed buf →
    ∃ l, current pre = some l ∧ l.Accounts buf) log
  /-- So are those of the subscription in place. -/
  live : a.notifications.isSome → ∃ l, current log = some l ∧ l.Accounts a.assembler.buf
  /-- Whatever is received is received by a subscription. -/
  within : Always (fun pre o => o.heard.isSome → (current pre).isSome) log
  /-- A measurement is broadcast right after its frame was taken, and only then. -/
  broadcast : Always (fun pre o => o.broadcastOf = due chrono pre) log
  settled : due chrono log = none
  /-- Every operation reached the clients on the list when it was made. -/
  replay : a.clients.fan = (log.foldl Obs.replay start).fan

end Zone

/-! ## Accounts -/

theorem accounts_iff {l : Live} {buf : List UInt8} : l.Accounts buf ↔
    FrameAssembler.frames.scan l.rx = (l.took ++ (FrameAssembler.frames.scan buf).1,
      (FrameAssembler.frames.scan buf).2) := by
  simp only [Live.Accounts, FrameAssembler.drain_eq_scan, FrameAssembler.new, FrameAssembler.feed,
    List.nil_append, Prod.mk.injEq, FrameAssembler.mk.injEq]
  exact ⟨fun h => Prod.ext h.1 h.2, fun h => Prod.ext_iff.mp h⟩

theorem accounts_fresh : Live.Accounts ⟨[], []⟩ [] := by
  rw [accounts_iff]
  simp

/-- Driving the iterator over one more value keeps the accounts. -/
theorem Live.Accounts.pull {l : Live} {assembler : FrameAssembler} (h : l.Accounts assembler.buf)
    (stop : List UInt8 → Bool) (value : List UInt8) :
    Live.Accounts ⟨l.rx ++ value, l.took ++ ((assembler.feed value).pull stop).1 ++
      ((assembler.feed value).pull stop).2.1.toList⟩
      ((assembler.feed value).pull stop).2.2.buf := by
  rw [accounts_iff] at h ⊢
  have hscan := (FrameAssembler.pull_spec stop (assembler.feed value)).scan
  have hbuf : (assembler.feed value).buf = assembler.buf ++ value := rfl
  rw [hbuf, FrameAssembler.frames.scan_append] at hscan
  obtain ⟨hframes, hrest⟩ := Prod.ext_iff.mp hscan
  rw [FrameAssembler.frames.scan_append, h]
  refine Prod.ext ?_ hrest
  simpa using congrArg (l.took ++ ·) hframes

/-! ## One observation more -/

@[simp] theorem current_append (log seg : List Obs) :
    current (log ++ seg) = seg.foldl Live.after (current log) := List.foldl_append

section Zone

variable {chrono : Chrono}

theorem due_concat (log : List Obs) (o : Obs) : due chrono (log ++ [o]) = owed chrono o := by
  simp [due]

@[simp] theorem fan_withStats (a : Actor) (f : AgentStats → AgentStats) :
    (a.withStats f).clients.fan = a.clients.fan := rfl

/-- The operations do not look at the counters. -/
theorem fan_apply {c c' : Clients} (h : c.fan = c'.fan) (op : ClientOp) :
    (c.apply op).fan = (c'.apply op).fan := by
  obtain ⟨list, chans, stats⟩ := c
  obtain ⟨list', chans', stats'⟩ := c'
  obtain ⟨rfl, rfl⟩ : list = list' ∧ chans = chans' := Prod.ext_iff.mp h
  cases op with
  | broadcast response =>
    simp only [Clients.apply, Clients.broadcast]
    split <;> rfl
  | reap =>
    simp only [Clients.apply, Clients.reap]
    split <;> rfl
  | _ => rfl

theorem fan_run : ∀ (ops : List ClientOp) {c c' : Clients}, c.fan = c'.fan →
    (c.run ops).fan = (c'.run ops).fan
  | [], _, _, h => h
  | op :: ops, _, _, h => fan_run ops (fan_apply h op)

theorem fan_replay {c c' : Clients} (h : c.fan = c'.fan) (o : Obs) :
    (o.replay c).fan = (o.replay c').fan := by
  cases o with
  | clients op => exact fan_apply h op
  | meanwhile acts => exact fan_run _ h
  | reply tx response =>
    obtain ⟨hlist, hchans⟩ := Prod.ext_iff.mp h
    simp only [Clients.fan] at hlist hchans
    simp [Obs.replay, Clients.fan, hlist, hchans]
  | _ => exact h

/-- An observation that the accounts and the broadcasts do not mention. -/
def Obs.isInert : Obs → Bool
  | .opened | .closed _ | .rx _ | .took _ _ | .clients (.broadcast _) => false
  | _ => true

namespace StreamLaw

variable {start : Clients} {log : List Obs} {a a' : Actor}

/-- A change of the state that leaves the stream and the clients alone. -/
theorem congr (h : StreamLaw chrono start log a) (hn : a'.notifications = a.notifications)
    (hasm : a'.assembler = a.assembler) (hfan : a'.clients.fan = a.clients.fan) :
    StreamLaw chrono start log a' :=
  ⟨h.closed, by rw [hn, hasm]; exact h.live, h.within, h.broadcast, h.settled,
    hfan.trans h.replay⟩

theorem inert {o : Obs} (h : StreamLaw chrono start log a) (ho : o.isInert = true)
    (hn : a'.notifications = a.notifications) (hasm : a'.assembler = a.assembler)
    (hfan : a'.clients.fan = (o.replay a.clients).fan) :
    StreamLaw chrono start (log ++ [o]) a' := by
  have hbroadcast : o.broadcastOf = none := by
    unfold Obs.broadcastOf
    split <;> simp_all [Obs.isInert]
  have hlive : ∀ live, Live.after live o = live := by
    intro live
    unfold Live.after
    split <;> simp_all [Obs.isInert]
  have howed : owed chrono o = none := by
    unfold owed
    split <;> simp_all [Obs.isInert]
  have hheard : o.heard = none := by
    unfold Obs.heard
    split <;> simp_all [Obs.isInert]
  refine ⟨always_concat.mpr ⟨h.closed, ?_⟩, ?_, always_concat.mpr ⟨h.within, by simp [hheard]⟩,
    always_concat.mpr ⟨h.broadcast, ?_⟩, ?_, ?_⟩
  · rintro buf rfl
    cases ho
  · rw [hn, hasm]
    simpa [hlive] using h.live
  · rw [hbroadcast, h.settled]
  · rw [due_concat, howed]
  · rw [List.foldl_append]
    exact hfan.trans (fan_replay h.replay o)

theorem drop (h : StreamLaw chrono start log a) :
    StreamLaw chrono start (log ++ a.closing) a.dropped := by
  unfold Actor.closing
  split
  case h_2 hn =>
    rw [List.append_nil]
    exact h.congr hn.symm rfl rfl
  case h_1 n hn =>
    refine ⟨always_concat.mpr ⟨h.closed, ?_⟩, by simp [Actor.dropped],
      always_concat.mpr ⟨h.within, by simp [Obs.heard]⟩, always_concat.mpr ⟨h.broadcast, ?_⟩,
      ?_, ?_⟩
    · intro buf hbuf
      cases hbuf
      exact h.live (by simp [hn])
    · rw [h.settled]
      rfl
    · rw [due_concat]
      rfl
    · rw [List.foldl_append]
      exact h.replay

theorem subscribe (h : StreamLaw chrono start log a) (n : Notifications) :
    StreamLaw chrono start (log ++ a.closing ++ [.opened]) (a.subscribed n) := by
  have hdrop := h.drop
  refine ⟨always_concat.mpr ⟨hdrop.closed, ?_⟩, ?_,
    always_concat.mpr ⟨hdrop.within, by simp [Obs.heard]⟩, always_concat.mpr ⟨hdrop.broadcast, ?_⟩,
    ?_, ?_⟩
  · intro buf hbuf
    cases hbuf
  · exact fun _ => ⟨⟨[], []⟩, by simp [Live.after], accounts_fresh⟩
  · rw [hdrop.settled]
    rfl
  · rw [due_concat]
    rfl
  · rw [List.foldl_append]
    exact hdrop.replay

end StreamLaw

/-! ## Feeding the assembler -/

/-- Taking a frame, and forwarding it, closes no subscription. -/
theorem closed_not_mem_takeObs {taker : Taker} {frame : List UInt8} {buf : List UInt8} :
    .closed buf ∉ takeObs chrono taker frame := by
  unfold takeObs forwardObs
  split <;> simp

/-- Nor does it receive anything. -/
theorem heard_takeObs {taker : Taker} {frame : List UInt8} {o : Obs}
    (h : o ∈ takeObs chrono taker frame) : o.heard = none := by
  unfold takeObs forwardObs at h
  split at h
  · rw [List.mem_singleton.mp h]
    rfl
  · simp only [List.mem_cons, List.not_mem_nil, or_false] at h
    rcases h with rfl | rfl <;> rfl

/-- One frame taken and forwarded: it joins what was taken, and its broadcast
follows. -/
theorem takeObs_spec {taker : Taker} (htaker : taker ≠ .reply .measurement) {start : Clients}
    {log : List Obs} {a : Actor} (frame : List UInt8)
    (hb : Always (fun pre o => o.broadcastOf = due chrono pre) log) (hdue : due chrono log = none)
    (hfan : a.clients.fan = (log.foldl Obs.replay start).fan) :
    Always (fun pre o => o.broadcastOf = due chrono pre) (log ++ takeObs chrono taker frame) ∧
      due chrono (log ++ takeObs chrono taker frame) = none ∧
      (a.forwarded chrono frame).clients.fan =
        ((log ++ takeObs chrono taker frame).foldl Obs.replay start).fan := by
  have howed : owed chrono (.took frame taker) =
      (tryMeasurement chrono frame).map .fromMeasurement := by
    cases taker with
    | reply kind =>
      cases kind with
      | command => rfl
      | measurement => exact absurd rfl htaker
    | _ => rfl
  have htook : Always (fun pre o => o.broadcastOf = due chrono pre) (log ++ [.took frame taker]) :=
    always_concat.mpr ⟨hb, by rw [hdue]; rfl⟩
  unfold takeObs forwardObs Actor.forwarded
  cases hm : tryMeasurement chrono frame with
  | none =>
    refine ⟨htook, ?_, ?_⟩
    · rw [due_concat, howed, hm]
      rfl
    · rw [List.foldl_append]
      exact hfan
  | some m =>
    have hsplit : log ++ (.took frame taker :: [.clients (.broadcast (.fromMeasurement m))]) =
        (log ++ [.took frame taker]) ++ [.clients (.broadcast (.fromMeasurement m))] := by simp
    dsimp only
    rw [hsplit]
    refine ⟨always_concat.mpr ⟨htook, ?_⟩, ?_, ?_⟩
    · rw [due_concat, howed, hm]
      rfl
    · rw [due_concat]
      rfl
    · rw [List.foldl_append, List.foldl_append]
      exact fan_apply ((fan_withStats a _).trans hfan) (.broadcast (.fromMeasurement m))

/-- Frames taken one after the other. -/
theorem takeAll_spec {taker : Taker} (htaker : taker ≠ .reply .measurement) {start : Clients} :
    ∀ (frames : List (List UInt8)) {log : List Obs} {a : Actor},
    Always (fun pre o => o.broadcastOf = due chrono pre) log → due chrono log = none →
    a.clients.fan = (log.foldl Obs.replay start).fan →
    Always (fun pre o => o.broadcastOf = due chrono pre)
        (log ++ frames.flatMap (takeObs chrono taker)) ∧
      due chrono (log ++ frames.flatMap (takeObs chrono taker)) = none ∧
      (frames.foldl (Actor.forwarded chrono) a).clients.fan =
        ((log ++ frames.flatMap (takeObs chrono taker)).foldl Obs.replay start).fan
  | [], log, a, hb, hdue, hfan => by simpa using ⟨hb, hdue, hfan⟩
  | frame :: frames, log, a, hb, hdue, hfan => by
    obtain ⟨hb', hdue', hfan'⟩ := takeObs_spec htaker frame hb hdue hfan
    have hrest := takeAll_spec htaker frames hb' hdue' hfan'
    simpa using hrest

theorem after_takeObs (taker : Taker) (frame : List UInt8) (l : Live) :
    (takeObs chrono taker frame).foldl Live.after (some l) =
      some { l with took := l.took ++ [frame] } := by
  unfold takeObs forwardObs
  split <;> rfl

theorem after_takeAll (taker : Taker) : ∀ (frames : List (List UInt8)) (l : Live),
    (frames.flatMap (takeObs chrono taker)).foldl Live.after (some l) =
      some { l with took := l.took ++ frames }
  | [], l => by simp
  | frame :: frames, l => by
    rw [List.flatMap_cons, List.foldl_append, after_takeObs, after_takeAll taker frames]
    simp

/-- Where a value has been fed and the frames before the one that stopped the
iterator have been forwarded: all but the accounts, which still lack that frame. -/
structure Fed (chrono : Chrono) (start : Clients) (log : List Obs) (a : Actor)
    (hit : Option (List UInt8)) : Prop where
  closed : Always (fun pre o => ∀ buf, o = .closed buf →
    ∃ l, current pre = some l ∧ l.Accounts buf) log
  live : a.notifications.isSome → ∃ l, current log = some l ∧
    Live.Accounts { l with took := l.took ++ hit.toList } a.assembler.buf
  within : Always (fun pre o => o.heard.isSome → (current pre).isSome) log
  broadcast : Always (fun pre o => o.broadcastOf = due chrono pre) log
  settled : due chrono log = none
  replay : a.clients.fan = (log.foldl Obs.replay start).fan

theorem StreamLaw.feeding {start : Clients} {log : List Obs} {a : Actor}
    (h : StreamLaw chrono start log a) (hsome : a.notifications.isSome = true)
    (stop : List UInt8 → Bool) (taker : Taker)
    (htaker : taker ≠ .reply .measurement) (value : List UInt8) :
    Fed chrono start (log ++ feedObs chrono a stop taker value) (a.fed chrono stop value)
      (a.pulled stop value).2.1 := by
  have hrx : Always (fun pre o => o.broadcastOf = due chrono pre) (log ++ [.rx value]) :=
    always_concat.mpr ⟨h.broadcast, by rw [h.settled]; rfl⟩
  have hdue : due chrono (log ++ [.rx value]) = none := by
    rw [due_concat]
    rfl
  have hfan : ({ a with assembler := (a.pulled stop value).2.2 } : Actor).clients.fan =
      ((log ++ [Obs.rx value]).foldl Obs.replay start).fan := by
    rw [List.foldl_append]
    exact h.replay
  obtain ⟨hb, hdue', hfan'⟩ := takeAll_spec htaker (a.pulled stop value).1 hrx hdue hfan
  have hlog : log ++ feedObs chrono a stop taker value =
      log ++ [Obs.rx value] ++ (a.pulled stop value).1.flatMap (takeObs chrono taker) := by
    simp [feedObs]
  obtain ⟨hn, hasm⟩ := forwardedAll_stream chrono (a.pulled stop value).1
    { a with assembler := (a.pulled stop value).2.2 }
  rw [hlog]
  obtain ⟨l, hl, haccounts⟩ := h.live hsome
  refine ⟨?_, fun _ => ?_, ?_, hb, hdue', hfan'⟩
  · refine Always.append (always_concat.mpr ⟨h.closed, ?_⟩) ?_
    · intro buf hbuf
      cases hbuf
    · rintro o ho pre buf rfl
      obtain ⟨frame, -, hmem⟩ := List.mem_flatMap.mp ho
      exact absurd hmem closed_not_mem_takeObs
  · refine ⟨⟨l.rx ++ value, l.took ++ (a.pulled stop value).1⟩, ?_, ?_⟩
    · rw [current_append, current_append, hl]
      exact after_takeAll taker _ _
    · have hpull := haccounts.pull stop value
      show Live.Accounts _ (a.fed chrono stop value).assembler.buf
      rw [Actor.fed, hasm]
      exact hpull
  · refine Always.append (always_concat.mpr ⟨h.within, fun _ => by simp [hl]⟩) ?_
    intro o ho pre hheard
    obtain ⟨frame, -, hmem⟩ := List.mem_flatMap.mp ho
    rw [heard_takeObs hmem] at hheard
    cases hheard

/-- The iterator ran dry. -/
theorem Fed.miss {start : Clients} {log : List Obs} {a : Actor} (h : Fed chrono start log a none) :
    StreamLaw chrono start log a :=
  ⟨h.closed, by simpa using h.live, h.within, h.broadcast, h.settled, h.replay⟩

/-- The frame that stopped the iterator is taken as the reply. -/
theorem Fed.hit {start : Clients} {log : List Obs} {a : Actor} {frame : List UInt8}
    {kind : FrameKind} (h : Fed chrono start log a (some frame))
    (hfits : kind.matches frame = true) :
    StreamLaw chrono start (log ++ [.took frame (.reply kind)]) a := by
  have howed : owed chrono (.took frame (.reply kind)) = none := by
    cases kind with
    | measurement => rfl
    | command =>
      have hshort := FrameKind.matches_command.mp hfits
      simp [owed, tryMeasurement_eq_none hshort]
  refine ⟨always_concat.mpr ⟨h.closed, ?_⟩, ?_,
    always_concat.mpr ⟨h.within, by simp [Obs.heard]⟩, always_concat.mpr ⟨h.broadcast, ?_⟩, ?_, ?_⟩
  · intro buf hbuf
    cases hbuf
  · intro hsome
    obtain ⟨l, hl, haccounts⟩ := h.live hsome
    exact ⟨{ l with took := l.took ++ [frame] }, by simp [hl, Live.after], haccounts⟩
  · rw [h.settled]
    rfl
  · rw [due_concat, howed]
  · rw [List.foldl_append]
    exact h.replay

/-- No step of the actor breaks the law of the stream. -/
theorem stable_streamLaw (chrono : Chrono) (start : Clients) :
    Stable chrono (StreamLaw chrono start) where
  meanwhile acts elapsed h := h.inert rfl rfl rfl rfl
  awaiting kind h := h.inert rfl rfl rfl rfl
  note ho h := h.inert (by revert ho; unfold Obs.isNote; split <;> simp [Obs.isInert]) rfl rfl
    (by revert ho; unfold Obs.isNote; split <;> simp [Obs.replay])
  connected h := h.inert rfl rfl rfl rfl
  recordReconnect h := h.congr rfl rfl rfl
  disconnected h := h.congr rfl rfl rfl
  clients hop h := h.inert (by unfold Obs.isInert; split <;> simp_all) rfl rfl rfl
  drop h := h.drop
  subscribe n h := h.subscribe n
  feed {log a} value hsome h := by
    have hfed := h.feeding hsome (fun _ => false) .notification (by simp) value
    have hnone : (a.pulled (fun _ => false) value).2.1 = none := by
      cases hpull : (a.pulled (fun _ => false) value).2.1 with
      | none => rfl
      | some frame => exact nomatch (FrameAssembler.pull_spec _ _).hit frame hpull
    rw [hnone] at hfed
    exact hfed.miss
  feedMiss kind value hsome hmiss h := by
    have hfed := h.feeding hsome kind.matches .forwarded (by simp) value
    rw [hmiss] at hfed
    exact hfed.miss
  feedHit kind value frame hsome hhit h := by
    have hfed := h.feeding hsome kind.matches .forwarded (by simp) value
    rw [hhit] at hfed
    exact hfed.hit ((FrameAssembler.pull_spec _ _).hit frame hhit)
  request tx request h := h.inert rfl rfl rfl rfl
  reply _ h := h.inert rfl rfl rfl rfl
  result _ h := h.inert rfl rfl rfl rfl

/-- Nothing is subscribed, and nothing has happened yet. -/
theorem streamLaw_start (chrono : Chrono) (conn : Connection) (interval now : Nat)
    (metricsListen : Option String) (pollAlways : Bool) :
    StreamLaw chrono (.new ((AgentStats.new now interval metricsListen).setConnected true)) []
      (Agent.start conn interval now metricsListen pollAlways).actor := by
  refine ⟨always_nil, fun hsome => ?_, always_nil, always_nil, rfl, rfl⟩
  cases hsome

/-- **One-shot requests never disturb the shared stream**: in every run, the values
handed over were received by the subscriptions, once and in order; the frames taken
during a subscription, with those left in the buffer, are the frames of what the
subscription received; and each measurement among them that answers no request was
broadcast once, to the clients on the list at that moment. -/
theorem stream_run (chrono : Chrono) (conn : Connection) (interval now : Nat)
    (metricsListen : Option String) (pollAlways : Bool) {labels : List (Event × List Answer)}
    {agent : Agent}
    (hrun : Transition.run (Agent.step chrono)
      (.start conn interval now metricsListen pollAlways) labels = some agent) :
    AllFed labels agent ∧
      StreamLaw chrono (.new ((AgentStats.new now interval metricsListen).setConnected true))
        agent.log agent.actor :=
  ⟨allFed_run conn interval now metricsListen pollAlways hrun,
    (stable_streamLaw chrono _).run (streamLaw_start chrono _ _ _ _ _) hrun⟩

/-- A client streams; a command is sent, and its reply arrives in one chunk with
the second half of a measurement. -/
def interleaved : List (Event × List Answer) :=
  let sample := generate
    [8, 0, 0, 0, 0, 100, 0, 0, 0, 0, 0, 0, 0, 0, 0, 0, 0, 0, 0, 0, 23, 9, 5, 30, 11, 120, 0]
  [(.command (some ⟨.subscribe, 0⟩), [.meanwhile [] 0, .meanwhile [] 0, .subscribe (.ok ())]),
    (.command (some ⟨.testLed, 1⟩), [.meanwhile [] 0, .meanwhile [] 0, .deviceWrite (.ok ()),
      .meanwhile [] 0, .next (some ⟨cRx, sample.take 10⟩),
      .meanwhile [] 0, .next (some ⟨cRx, sample.drop 10 ++ generate [0x3E, 0x00]⟩)])]

/-- And then the stream goes on, with a value of another characteristic, and with a
measurement in two chunks. -/
def interleavedOn : List (Event × List Answer) :=
  let sample := generate
    [8, 0, 0, 0, 0, 100, 0, 0, 0, 0, 0, 0, 0, 0, 0, 0, 0, 0, 0, 0, 24, 9, 5, 30, 11, 120, 0]
  interleaved ++ [(.notification (some ⟨cTx, [0xAA]⟩), [.meanwhile [] 0]),
    (.notification (some ⟨cRx, sample.take 20⟩), [.meanwhile [] 0]),
    (.notification (some ⟨cRx, sample.drop 20⟩), [.meanwhile [] 0])]

theorem stream_run_interleaved : ∃ agent,
    Transition.run (Agent.step (.utc fun _ => .error "premature end of input"))
      (.start ⟨1⟩ nanosPerSec 0 none false) interleavedOn = some agent ∧
    (agent.log.filterMap Obs.broadcastOf).length = 2 ∧
    AllFed interleavedOn agent ∧ StreamLaw (.utc fun _ => .error "premature end of input")
      (.new ((AgentStats.new 0 nanosPerSec none).setConnected true)) agent.log agent.actor := by
  have hcount : (Transition.run (Agent.step (.utc fun _ => .error "premature end of input"))
      (.start ⟨1⟩ nanosPerSec 0 none false) interleavedOn).any (fun agent =>
        (agent.log.filterMap Obs.broadcastOf).length == 2) = true := by decide +kernel
  obtain ⟨agent, hrun, htold⟩ := (Option.any_eq_true _ _).mp hcount
  exact ⟨agent, hrun, beq_iff_eq.mp htold, stream_run _ _ _ _ _ _ hrun⟩

/-- A measurement at the ninth second. -/
def ninthSecond : List UInt8 := generate
  [8, 0, 0, 0, 0, 100, 0, 0, 0, 0, 0, 0, 0, 0, 0, 0, 0, 0, 0, 0, 9, 9, 5, 30, 11, 120, 0]

/-- Shutdown is signalled when a measurement has woken the loop, and before its handler
has begun. -/
def abandoned : List (Event × List Answer) :=
  [(.command (some ⟨.subscribe, 0⟩), [.meanwhile [] 0, .meanwhile [] 0, .subscribe (.ok ())]),
    (.notification (some ⟨cRx, ninthSecond⟩), [])]

/-- What was received then is lost: a fresh assembler yields its frame, and it was neither
taken nor is it left for a final drain. -/
theorem not_received_abandoned : ∃ agent l,
    Transition.run (Agent.step (.utc fun _ => .error "premature end of input"))
      (.start ⟨1⟩ nanosPerSec 0 none false) abandoned = some agent ∧
    current agent.log = some l ∧
    (FrameAssembler.new.feedAll (heardIn abandoned)).1 = [ninthSecond] ∧
    l.took ++ agent.actor.assembler.drain.1 = [] := by
  have hseen : (Transition.run (Agent.step (.utc fun _ => .error "premature end of input"))
      (.start ⟨1⟩ nanosPerSec 0 none false) abandoned).map (fun agent =>
        (current agent.log, agent.actor.assembler.drain.1)) = some (some ⟨[], []⟩, []) := by
    decide +kernel
  obtain ⟨agent, hrun, hagent⟩ := Option.map_eq_some_iff.mp hseen
  obtain ⟨hcurrent, hdrained⟩ := Prod.mk.inj hagent
  exact ⟨agent, ⟨[], []⟩, hrun, hcurrent, by decide +kernel, by rw [hdrained]; rfl⟩

end Zone

end Btwattch2
