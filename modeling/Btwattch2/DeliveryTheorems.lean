/-
Btwattch2.DeliveryTheorems — what is left in the assembler when an event has been
handled.

`feed` returns an iterator, and only a caller that drives it to its end empties
the buffer of complete frames. `fill` reads off the log what the assembler was
fed since it was cleared and what was taken out of it; the buffer is always
where that leaves it (`Holds`, a stable invariant): at the end of the scan, or
right behind the reply that a one-shot stopped at.
-/
import Btwattch2.StreamTheorems

namespace Btwattch2

open Lib

/-! ## Reading the log -/

/-- What the assembler has been fed since it was cleared, and what was taken out
of it. -/
structure Fill where
  rx : List UInt8
  took : List (List UInt8)
  /-- A one-shot took its reply, and nothing has been fed since. -/
  replied : Bool
  deriving DecidableEq, Repr

def Fill.after (f : Fill) : Obs → Fill
  | .opened => ⟨[], [], false⟩
  | .rx value => ⟨f.rx ++ value, f.took, false⟩
  | .took frame (.reply _) => ⟨f.rx, f.took ++ [frame], true⟩
  | .took frame _ => { f with took := f.took ++ [frame] }
  | _ => f

def fill (log : List Obs) : Fill := log.foldl Fill.after ⟨[], [], false⟩

/-- What follows, in the bytes received, the last of the frames taken. -/
def Fill.rest (f : Fill) : List UInt8 := FrameAssembler.frames.after f.took.length f.rx

/-- A reply is followed by less than a frame: by no complete one, and by fewer bytes
than the longest has. -/
def Fill.ReplyLast (f : Fill) : Prop :=
  f.replied = true →
    (FrameAssembler.frames.scan f.rest).1 = [] ∧ f.rest.length < maxFrameLen

/-- Everything complete has been delivered. -/
structure Fill.Delivered (f : Fill) (buf : List UInt8) : Prop where
  /-- No complete frame is left in the buffer. -/
  front : (FrameAssembler.mk buf).drain.1 = []
  bound : buf.length < maxFrameLen
  /-- Every frame that is complete in what was fed has been taken. -/
  taken : (FrameAssembler.new.feed f.rx).drain.1 = f.took

/-- Where the buffer is, for what was fed and taken. -/
structure Fill.Holds (f : Fill) (buf : List UInt8) : Prop where
  scan : FrameAssembler.frames.scan f.rx =
    (f.took ++ (FrameAssembler.frames.scan buf).1, (FrameAssembler.frames.scan buf).2)
  /-- The next frame is that of the bytes behind the last one taken. -/
  next : ∀ more, FrameAssembler.frames.next (f.rest ++ more) =
    FrameAssembler.frames.next (buf ++ more)
  replied : f.replied = true → buf = f.rest
  drained : f.replied = false → FrameAssembler.frames.scan buf = ([], buf)

/-! ## What the buffer holds -/

namespace Fill.Holds

open FrameAssembler (frames)

variable {f : Fill} {buf : List UInt8}

theorem fresh : Fill.Holds ⟨[], [], false⟩ [] := ⟨by simp, fun _ => rfl, by simp, by simp⟩

theorem drained_bound (h : f.Holds buf) (hf : f.replied = false) : buf.length < maxFrameLen := by
  have hscan : frames.look (frames.scan buf).2 = .wait := frames.look_scan buf
  rw [h.drained hf] at hscan
  exact (FrameAssembler.verdict_wait_bound hscan).2

/-- **Only what follows a reply is ever left undelivered.** -/
theorem delivered (h : f.Holds buf) : f.Delivered buf ↔ f.ReplyLast := by
  have hdrain : (FrameAssembler.mk buf).drain.1 = (frames.scan buf).1 := by
    rw [FrameAssembler.drain_eq_scan]
  have hfed : (FrameAssembler.new.feed f.rx).drain.1 = f.took ++ (frames.scan buf).1 := by
    rw [FrameAssembler.drain_eq_scan]
    exact congrArg Prod.fst h.scan
  constructor
  · intro hdelivered hreplied
    rw [← h.replied hreplied, ← hdrain]
    exact ⟨hdelivered.front, hdelivered.bound⟩
  · intro hlast
    have hshort : (frames.scan buf).1 = [] ∧ buf.length < maxFrameLen := by
      cases hf : f.replied with
      | true =>
        rw [h.replied hf]
        exact hlast hf
      | false => exact ⟨by rw [h.drained hf], h.drained_bound hf⟩
    exact ⟨hdrain.trans hshort.1, hshort.2, by rw [hfed, hshort.1, List.append_nil]⟩

theorem length_le (h : f.Holds buf) : f.took.length ≤ (frames.scan f.rx).1.length := by
  rw [h.scan]
  simp

/-- What follows one frame more, or several, is the same in all that was received
as in the buffer. -/
theorem after_succ (h : f.Holds buf) (value : List UInt8) (m : Nat) :
    frames.after (f.took.length + (m + 1)) (f.rx ++ value) =
      frames.after (m + 1) (buf ++ value) := by
  have hnext : frames.next (frames.after f.took.length f.rx ++ value) =
    frames.next (buf ++ value) :=
    h.next value
  rw [frames.after_add, frames.after_append h.length_le, frames.after_succ,
    frames.after_succ, hnext]

/-- The scan of what was received, with the frames pulled out of one more value. -/
theorem scan_pull {assembler : FrameAssembler} (h : f.Holds assembler.buf)
    (stop : List UInt8 → Bool)
    (value : List UInt8) :
    frames.scan (f.rx ++ value) =
      (f.took ++ (((assembler.feed value).pull stop).1 ++
          ((assembler.feed value).pull stop).2.1.toList) ++
        (frames.scan ((assembler.feed value).pull stop).2.2.buf).1,
      (frames.scan ((assembler.feed value).pull stop).2.2.buf).2) := by
  have hpull := (FrameAssembler.pull_spec stop (assembler.feed value)).scan
  have hbuf : (assembler.feed value).buf = assembler.buf ++ value := rfl
  rw [hbuf, frames.scan_append] at hpull
  obtain ⟨hframes, hrest⟩ := Prod.ext_iff.mp hpull
  rw [frames.scan_append, h.scan]
  refine Prod.ext ?_ hrest
  simpa using congrArg (f.took ++ ·) hframes

/-- The iterator ran dry. -/
theorem miss {assembler : FrameAssembler} (h : f.Holds assembler.buf) {stop : List UInt8 → Bool}
    {value : List UInt8} (hmiss : ((assembler.feed value).pull stop).2.1 = none) :
    Fill.Holds ⟨f.rx ++ value, f.took ++ ((assembler.feed value).pull stop).1, false⟩
      ((assembler.feed value).pull stop).2.2.buf := by
  have hscan := h.scan_pull stop value
  have hdry : frames.next (frames.after ((assembler.feed value).pull stop).1.length
      (assembler.buf ++ value)) = (none, ((assembler.feed value).pull stop).2.2.buf) :=
    (FrameAssembler.pull_after stop (assembler.feed value)).dry hmiss
  refine ⟨?_, fun more => ?_, by simp,
    fun _ => (FrameAssembler.pull_spec stop (assembler.feed value)).dry hmiss⟩
  · rw [hscan, hmiss]
    simp
  · have hmore := frames.next_append_of_none (congrArg Prod.fst hdry) more
    rw [hdry] at hmore
    rw [← hmore]
    show frames.next (frames.after (f.took ++ _).length (f.rx ++ value) ++ more) = _
    rw [List.length_append]
    cases ((assembler.feed value).pull stop).1.length with
    | zero =>
      -- no frame came of it: what follows the last one has grown by the value
      have hnext : frames.next (f.rest ++ (value ++ more)) =
          frames.next (assembler.buf ++ (value ++ more)) := h.next (value ++ more)
      rw [Nat.add_zero, frames.after_append h.length_le, frames.after_zero, List.append_assoc,
        List.append_assoc]
      exact hnext
    | succ m => rw [h.after_succ]

/-- The iterator stopped at a reply. -/
theorem hit {assembler : FrameAssembler} (h : f.Holds assembler.buf) {stop : List UInt8 → Bool}
    {value frame : List UInt8} (hhit : ((assembler.feed value).pull stop).2.1 = some frame) :
    Fill.Holds ⟨f.rx ++ value, f.took ++ ((assembler.feed value).pull stop).1 ++ [frame], true⟩
      ((assembler.feed value).pull stop).2.2.buf := by
  have hscan := h.scan_pull stop value
  have hbuf : ((assembler.feed value).pull stop).2.2.buf =
      frames.after (((assembler.feed value).pull stop).1.length + 1) (assembler.buf ++ value) :=
    (FrameAssembler.pull_after stop (assembler.feed value)).hit (by simp [hhit])
  have hrest : ((assembler.feed value).pull stop).2.2.buf = Fill.rest
      ⟨f.rx ++ value, f.took ++ ((assembler.feed value).pull stop).1 ++ [frame], true⟩ := by
    rw [hbuf, ← h.after_succ, Fill.rest]
    simp
  refine ⟨?_, fun more => by rw [← hrest], fun _ => hrest, by simp⟩
  rw [hscan, hhit]
  simp

end Fill.Holds

/-! ## One observation more -/

@[simp] theorem fill_append (log seg : List Obs) :
    fill (log ++ seg) = seg.foldl Fill.after (fill log) := List.foldl_append

section Zone

variable {chrono : Chrono}

theorem fill_takeObs {taker : Taker} (htaker : ∀ kind, taker ≠ .reply kind) (frame : List UInt8)
    (f : Fill) : (takeObs chrono taker frame).foldl Fill.after f =
      { f with took := f.took ++ [frame] } := by
  have htook : f.after (.took frame taker) = { f with took := f.took ++ [frame] } := by
    cases taker with
    | reply kind => exact absurd rfl (htaker kind)
    | _ => rfl
  unfold takeObs forwardObs
  split
  · exact htook
  · exact htook

theorem fill_takeAll {taker : Taker} (htaker : ∀ kind, taker ≠ .reply kind) :
    ∀ (frames : List (List UInt8)) (f : Fill),
    (frames.flatMap (takeObs chrono taker)).foldl Fill.after f =
      { f with took := f.took ++ frames }
  | [], f => by simp
  | frame :: frames, f => by
    rw [List.flatMap_cons, List.foldl_append, fill_takeObs htaker, fill_takeAll htaker frames]
    simp

theorem fill_feedObs {taker : Taker} (htaker : ∀ kind, taker ≠ .reply kind) (log : List Obs)
    (a : Actor) (stop : List UInt8 → Bool) (value : List UInt8) :
    fill (log ++ feedObs chrono a stop taker value) =
      ⟨(fill log).rx ++ value, (fill log).took ++ (a.pulled stop value).1, false⟩ := by
  rw [fill_append]
  exact fill_takeAll htaker _ _

theorem assembler_fed (a : Actor) (stop : List UInt8 → Bool) (value : List UInt8) :
    (a.fed chrono stop value).assembler = (a.pulled stop value).2.2 :=
  (forwardedAll_stream chrono _ _).2

/-- The buffer is where the log leaves it, now and whenever a subscription ended. -/
structure Positioned (log : List Obs) (a : Actor) : Prop where
  buffer : (fill log).Holds a.assembler.buf
  closed : Always (fun pre o => ∀ buf, o = .closed buf → (fill pre).Holds buf) log

/-- An observation that neither feeds nor clears the assembler, nor takes a frame. -/
def Obs.isIdle : Obs → Bool
  | .opened | .closed _ | .rx _ | .took _ _ => false
  | _ => true

namespace Positioned

variable {log : List Obs} {a a' : Actor}

theorem idle {o : Obs} (h : Positioned log a) (ho : o.isIdle = true)
    (hasm : a'.assembler = a.assembler) : Positioned (log ++ [o]) a' := by
  have hfill : ∀ f : Fill, f.after o = f := by
    intro f
    cases o <;> first | rfl | cases ho
  refine ⟨by simpa [hfill, hasm] using h.buffer, always_concat.mpr ⟨h.closed, ?_⟩⟩
  rintro buf rfl
  cases ho

theorem closing (h : Positioned log a) : Positioned (log ++ a.closing) a := by
  unfold Actor.closing
  split
  case h_1 =>
    refine ⟨by simpa [Fill.after] using h.buffer, always_concat.mpr ⟨h.closed, ?_⟩⟩
    intro buf hbuf
    cases hbuf
    exact h.buffer
  case h_2 => simpa using h

theorem opened (h : Positioned log a) (n : Notifications) :
    Positioned (log ++ [.opened]) (a.subscribed n) := by
  have hfresh : (fill (log ++ [.opened])).Holds [] := by
    rw [fill_append]
    exact Fill.Holds.fresh
  refine ⟨hfresh, always_concat.mpr ⟨h.closed, ?_⟩⟩
  intro buf hbuf
  cases hbuf

/-- Feeding a value ends no subscription. -/
theorem closed_feedObs (h : Positioned log a) (stop : List UInt8 → Bool) (taker : Taker)
    (value : List UInt8) : Always (fun pre o => ∀ buf, o = .closed buf → (fill pre).Holds buf)
      (log ++ feedObs chrono a stop taker value) := by
  refine Always.append h.closed ?_
  rintro o ho pre buf rfl
  rcases List.mem_cons.mp ho with ho | ho
  · cases ho
  · obtain ⟨frame, -, hmem⟩ := List.mem_flatMap.mp ho
    exact absurd hmem closed_not_mem_takeObs

theorem miss (h : Positioned log a) {stop : List UInt8 → Bool} {taker : Taker}
    (htaker : ∀ kind, taker ≠ .reply kind) {value : List UInt8}
    (hmiss : (a.pulled stop value).2.1 = none) :
    Positioned (log ++ feedObs chrono a stop taker value) (a.fed chrono stop value) := by
  refine ⟨?_, h.closed_feedObs stop taker value⟩
  rw [fill_feedObs htaker, assembler_fed]
  exact h.buffer.miss hmiss

theorem hit (h : Positioned log a) {stop : List UInt8 → Bool} {taker : Taker}
    (htaker : ∀ kind, taker ≠ .reply kind) {value frame : List UInt8}
    (hhit : (a.pulled stop value).2.1 = some frame) (kind : FrameKind) :
    Positioned (log ++ feedObs chrono a stop taker value ++ [.took frame (.reply kind)])
      (a.fed chrono stop value) := by
  refine ⟨?_, always_concat.mpr ⟨h.closed_feedObs stop taker value, ?_⟩⟩
  · rw [fill_append, fill_feedObs htaker, assembler_fed]
    exact h.buffer.hit hhit
  · intro buf hbuf
    cases hbuf

end Positioned

/-- Every step of the actor leaves the buffer where its log says. -/
theorem stable_positioned (chrono : Chrono) : Stable chrono Positioned where
  meanwhile acts elapsed h := h.idle rfl rfl
  awaiting kind h := h.idle rfl rfl
  note {log a o} ho h := h.idle (by cases o <;> first | rfl | cases ho) rfl
  connected h := h.idle rfl rfl
  recordReconnect h := ⟨h.buffer, h.closed⟩
  disconnected h := ⟨h.buffer, h.closed⟩
  clients _ h := h.idle rfl rfl
  drop h := ⟨h.closing.buffer, h.closing.closed⟩
  subscribe n h := h.closing.opened n
  feed {log a} value _ h := by
    have hnone : (a.pulled (fun _ => false) value).2.1 = none := by
      cases hpull : (a.pulled (fun _ => false) value).2.1 with
      | none => rfl
      | some frame => exact nomatch (FrameAssembler.pull_spec _ _).hit frame hpull
    exact h.miss (by simp) hnone
  feedMiss kind value _ hmiss h := h.miss (by simp) hmiss
  feedHit kind value frame _ hhit h := h.hit (by simp) hhit kind
  request tx request h := h.idle rfl rfl
  reply _ h := h.idle rfl rfl
  result _ h := h.idle rfl rfl

/-! ## Every run -/

/-- **When completed frames are delivered at once**: at the end of an event, and
whenever a subscription ends, exactly if less than a frame follows the reply that
was taken last, if one was. -/
theorem delivered_iff (chrono : Chrono) (conn : Connection) (interval now : Nat)
    (metricsListen : Option String) (pollAlways : Bool) {labels : List (Event × List Answer)}
    {agent : Agent}
    (hrun : Transition.run (Agent.step chrono)
      (.start conn interval now metricsListen pollAlways) labels = some agent) :
    ((fill agent.log).Delivered agent.actor.assembler.buf ↔ (fill agent.log).ReplyLast) ∧
    ∀ pre buf post, agent.log = pre ++ .closed buf :: post →
      ((fill pre).Delivered buf ↔ (fill pre).ReplyLast) := by
  have hstart : Positioned [] (Agent.start conn interval now metricsListen pollAlways).actor :=
    ⟨Fill.Holds.fresh, always_nil⟩
  have hpositioned : Positioned agent.log agent.actor := (stable_positioned chrono).run hstart hrun
  refine ⟨hpositioned.buffer.delivered, fun pre buf post hlog => ?_⟩
  exact (hpositioned.closed pre _ post hlog buf rfl).delivered

/-- A client streams, and a command's reply comes in one value with the measurement
before it. -/
def replyAfterSample : List (Event × List Answer) :=
  [(.command (some ⟨.subscribe, 0⟩), [.meanwhile [] 0, .meanwhile [] 0, .subscribe (.ok ())]),
    (.command (some ⟨.testLed, 1⟩), [.meanwhile [] 0, .meanwhile [] 0, .deviceWrite (.ok ()),
      .meanwhile [] 0, .next (some
        ⟨cRx, generate (List.replicate 27 0) ++ generate [0x3E, 0x00]⟩)])]

/-- The same two frames, the measurement behind the reply. -/
def sampleAfterReply : List (Event × List Answer) :=
  [(.command (some ⟨.subscribe, 0⟩), [.meanwhile [] 0, .meanwhile [] 0, .subscribe (.ok ())]),
    (.command (some ⟨.testLed, 1⟩), [.meanwhile [] 0, .meanwhile [] 0, .deviceWrite (.ok ()),
      .meanwhile [] 0, .next (some
        ⟨cRx, generate [0x3E, 0x00] ++ generate (List.replicate 27 0)⟩)])]

theorem delivered_iff_replyAfterSample : ∃ agent,
    Transition.run (Agent.step (.utc fun _ => .error "premature end of input"))
      (.start ⟨1⟩ nanosPerSec 0 none false) replyAfterSample = some agent ∧
    agent.actor.assembler.buf = [] ∧
    (((fill agent.log).Delivered agent.actor.assembler.buf ↔ (fill agent.log).ReplyLast) ∧
      ∀ pre buf post, agent.log = pre ++ .closed buf :: post →
        ((fill pre).Delivered buf ↔ (fill pre).ReplyLast)) := by
  have hempty : (Transition.run (Agent.step (.utc fun _ => .error "premature end of input"))
      (.start ⟨1⟩ nanosPerSec 0 none false) replyAfterSample).any (fun agent =>
        agent.actor.assembler.buf == []) = true := by decide +kernel
  obtain ⟨agent, hrun, hagent⟩ := (Option.any_eq_true _ _).mp hempty
  exact ⟨agent, hrun, beq_iff_eq.mp hagent, delivered_iff _ _ _ _ _ _ hrun⟩

/-- The command ends with a complete frame left in the buffer. -/
theorem not_delivered : ∃ agent,
    Transition.run (Agent.step (.utc fun _ => .error "premature end of input"))
      (.start ⟨1⟩ nanosPerSec 0 none false) sampleAfterReply = some agent ∧
    agent.actor.assembler.buf = generate (List.replicate 27 0) ∧
    ¬ (fill agent.log).Delivered agent.actor.assembler.buf := by
  have hleft : (Transition.run (Agent.step (.utc fun _ => .error "premature end of input"))
      (.start ⟨1⟩ nanosPerSec 0 none false) sampleAfterReply).any (fun agent =>
        agent.actor.assembler.buf == generate (List.replicate 27 0)) = true := by decide +kernel
  obtain ⟨agent, hrun, hagent⟩ := (Option.any_eq_true _ _).mp hleft
  have hbuf := beq_iff_eq.mp hagent
  refine ⟨agent, hrun, hbuf, fun hdelivered => ?_⟩
  have hfront := hdelivered.front
  rw [hbuf] at hfront
  exact absurd hfront (by decide +kernel)

end Zone

end Btwattch2
