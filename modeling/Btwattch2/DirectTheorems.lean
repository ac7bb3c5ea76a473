/-
Btwattch2.DirectTheorems — which bytes the frames of the direct path are made of.

`Received` compares the assembler with a fresh one that was fed what the
subscription in place has received, and nothing else. `oneshot` clears its
assembler wherever it renews the subscription, so each of its frames is made of
the bytes of one subscription (`wp_oneshot`). `subscribe` clears it where the
stream has ended and forgets to where a write re-established the link, so there
it depends on what the assembler held at that moment (`frames_whole_iff`).
-/
import Btwattch2.Direct
import Btwattch2.StreamTheorems

namespace Btwattch2

open Lib

/-! ## Frames and the bytes they are made of -/

/-- What the subscription in place has received makes a fresh assembler yield the
frames taken so far and then `pending`, and leaves `rest` in it. -/
def Received (log : List Obs) (pending : List (List UInt8)) (rest : FrameAssembler) : Prop :=
  ∃ l, current log = some l ∧ (FrameAssembler.new.feed l.rx).drain = (l.took ++ pending, rest)

/-- The frame that was taken. -/
def Obs.frame : Obs → Option (List UInt8)
  | .took frame _ => some frame
  | _ => none

/-- Every frame that was taken is the next one a fresh assembler yields on what
the subscription in place had received by then. -/
def FromOneStream (log : List Obs) : Prop :=
  Always (fun pre o => ∀ frame ∈ o.frame, ∃ l ∈ current pre,
    l.took ++ [frame] <+: (FrameAssembler.new.feed l.rx).drain.1) log

instance (log : List Obs) : Decidable (FromOneStream log) :=
  inferInstanceAs (Decidable (Always _ log))

/-- An observation of a link operation. -/
def Obs.isLink : Obs → Bool
  | .deviceWrite _ _ | .connected | .listen _ | .write _ _ | .reconnectStream _ => true
  | _ => false

/-- Observations of link operations. -/
def OnLink (obs : List Obs) : Prop := ∀ o ∈ obs, o.isLink = true

/-- The subscription in place has received nothing yet. -/
def Fresh (log : List Obs) : Prop := current log = some ⟨[], []⟩

theorem after_onLink {obs : List Obs} (h : OnLink obs) (live : Option Live) :
    obs.foldl Live.after live = live := by
  induction obs with
  | nil => rfl
  | cons o obs ih =>
    have ho := h o (by simp)
    have hrest := ih fun x hx => h x (List.mem_cons_of_mem o hx)
    cases o <;> first | exact hrest | cases ho

theorem Received.onLink {log obs : List Obs} {pending : List (List UInt8)} {rest : FrameAssembler}
    (h : Received log pending rest) (hobs : OnLink obs) : Received (log ++ obs) pending rest := by
  obtain ⟨l, hl, hdrain⟩ := h
  exact ⟨l, by rw [current_append, hl, after_onLink hobs], hdrain⟩

theorem Fresh.onLink {log obs : List Obs} (h : Fresh log) (hobs : OnLink obs) :
    Fresh (log ++ obs) := by
  rw [Fresh, current_append, h, after_onLink hobs]

theorem fresh_opened (log : List Obs) : Fresh (log ++ [.opened]) := by
  rw [Fresh, current_append]
  rfl

/-- On a fresh subscription the assembler has to be empty. -/
theorem Fresh.reads_iff {log : List Obs} (h : Fresh log) {rest : FrameAssembler} :
    Received log [] rest ↔ rest = .new := by
  have hdrain : (FrameAssembler.new.feed []).drain = ([], .new) := rfl
  constructor
  · rintro ⟨l, hl, hrest⟩
    obtain rfl : ⟨[], []⟩ = l := Option.some.inj (h.symm.trans hl)
    exact (congrArg Prod.snd (hdrain.symm.trans hrest)).symm
  · rintro rfl
    exact ⟨_, h, hdrain⟩

theorem Received.awaiting {log : List Obs} {pending : List (List UInt8)} {rest : FrameAssembler}
    (h : Received log pending rest) (kind : FrameKind) :
    Received (log ++ [.awaiting kind]) pending rest := by
  obtain ⟨l, hl, hdrain⟩ := h
  exact ⟨l, by rw [current_append, hl]; rfl, hdrain⟩

/-- A value joins what was received. -/
theorem Received.rx {log : List Obs} {assembler : FrameAssembler} (h : Received log [] assembler)
    (value : List UInt8) :
    Received (log ++ [.rx value]) (assembler.feed value).drain.1
      (assembler.feed value).drain.2 := by
  obtain ⟨l, hl, hdrain⟩ := h
  refine ⟨{ l with rx := l.rx ++ value }, by rw [current_append, hl]; rfl, ?_⟩
  simp only [FrameAssembler.drain_eq_scan, FrameAssembler.new, FrameAssembler.feed,
    List.nil_append, List.append_nil, Prod.mk.injEq] at hdrain ⊢
  obtain ⟨htook, rfl⟩ := hdrain
  rw [FrameAssembler.frames.scan_append, htook]
  exact ⟨rfl, rfl⟩

/-- The next frame is taken. -/
theorem Received.took {log : List Obs} {frame : List UInt8} {pending : List (List UInt8)}
    {rest : FrameAssembler} (h : Received log (frame :: pending) rest) (taker : Taker) :
    Received (log ++ [.took frame taker]) pending rest := by
  obtain ⟨l, hl, hdrain⟩ := h
  refine ⟨{ l with took := l.took ++ [frame] }, by rw [current_append, hl]; rfl, ?_⟩
  simpa using hdrain

/-- The iterator over a value, driven until a frame satisfies `stop`. -/
theorem drain_eq_pull (stop : List UInt8 → Bool) (assembler : FrameAssembler) :
    assembler.drain = ((assembler.pull stop).1 ++ ((assembler.pull stop).2.1.toList ++
      (assembler.pull stop).2.2.drain.1), (assembler.pull stop).2.2.drain.2) := by
  simp only [FrameAssembler.drain_eq_scan, (FrameAssembler.pull_spec stop assembler).scan,
    List.append_assoc]

/-- An iterator that ran dry leaves nothing to yield. -/
theorem drain_of_dry {stop : List UInt8 → Bool} {assembler : FrameAssembler}
    (h : (assembler.pull stop).2.1 = none) :
    (assembler.pull stop).2.2.drain = ([], (assembler.pull stop).2.2) := by
  rw [FrameAssembler.drain_eq_scan, (FrameAssembler.pull_spec stop assembler).dry h]

theorem fromOneStream_nil : FromOneStream [] := always_nil

theorem FromOneStream.concat {log : List Obs} {o : Obs} (h : FromOneStream log)
    (ho : o.frame = none) : FromOneStream (log ++ [o]) :=
  always_concat.mpr ⟨h, by simp [ho]⟩

theorem FromOneStream.onLink {log obs : List Obs} (h : FromOneStream log) (hobs : OnLink obs) :
    FromOneStream (log ++ obs) := by
  refine Always.append h fun o ho pre frame hframe => ?_
  have hlink := hobs o ho
  cases o <;> first | cases hlink; done | cases hframe

theorem FromOneStream.took {log : List Obs} {frame : List UInt8} {pending : List (List UInt8)}
    {rest : FrameAssembler} (h : FromOneStream log) (hreads : Received log (frame :: pending) rest)
    (taker : Taker) : FromOneStream (log ++ [.took frame taker]) := by
  refine always_concat.mpr ⟨h, fun frame' heq => ?_⟩
  cases heq
  obtain ⟨l, hl, hdrain⟩ := hreads
  refine ⟨l, hl, pending, ?_⟩
  rw [hdrain]
  simp

/-! ## Link operations -/

/-- A computation on the link that logs link operations and nothing else. -/
def LinkOnly {α : Type} (x : Await Answer Obs Connection α) : Prop :=
  ∀ log c, Await.wp x (fun _ log' _ => ∃ obs, OnLink obs ∧ log' = log ++ obs)
    (fun log' _ => ∃ obs, OnLink obs ∧ log' = log ++ obs) log c

theorem onLink_nil : OnLink [] := by simp [OnLink]

theorem OnLink.append {obs obs' : List Obs} (h : OnLink obs) (h' : OnLink obs') :
    OnLink (obs ++ obs') :=
  fun o ho => (List.mem_append.mp ho).elim (h o) (h' o)

theorem linkOnly_listen : LinkOnly Connection.listen := by
  intro log c
  refine Connection.wp_listen ⟨[], onLink_nil, by simp⟩ ⟨_, ?_, rfl⟩ fun _ => ⟨_, ?_, rfl⟩
  · simp [OnLink, Obs.isLink]
  · simp [OnLink, Obs.isLink]

theorem linkOnly_reconnectStream : LinkOnly Connection.reconnectStream := by
  intro log c
  refine Connection.wp_reconnectStream ⟨[], onLink_nil, by simp⟩ ⟨_, ?_, rfl⟩ ⟨_, ?_, rfl⟩
    (fun _ => ⟨_, ?_, rfl⟩) fun _ => ⟨_, ?_, rfl⟩
  all_goals simp [OnLink, Obs.isLink]

theorem linkOnly_write (payload : List UInt8) : LinkOnly (Connection.write payload) := by
  have htries : ∀ {tries : List Obs}, Connection.WriteTries payload tries → OnLink tries := by
    intro tries h o ho
    obtain rfl | rfl := h o ho <;> rfl
  intro log c
  refine Connection.wp_write (fun tries h => ⟨_, htries h, rfl⟩)
    (fun tries h => ⟨_, (htries h).append ?_, List.append_assoc _ _ _⟩)
    fun tries e h => ⟨_, (htries h).append ?_, List.append_assoc _ _ _⟩
  all_goals simp [OnLink, Obs.isLink]

namespace Direct

variable {κ α : Type} {log : List Obs} {d : Direct κ} {E : List Obs → Direct κ → Prop}

theorem wp_onLink {x : Await Answer Obs Connection α} {Q : α → List Obs → Direct κ → Prop}
    (hx : LinkOnly x) (hE : ∀ obs conn, OnLink obs → E (log ++ obs) { d with conn })
    (hQ : ∀ r obs conn, OnLink obs → Q r (log ++ obs) { d with conn }) :
    Await.wp (onLink x) Q E log d := by
  refine Await.wp_zoom (Await.wp_mono (hx log d.conn) ?_ ?_)
  · rintro r log' conn ⟨obs, hobs, rfl⟩
    exact hQ r obs conn hobs
  · rintro log' conn ⟨obs, hobs, rfl⟩
    exact hE obs conn hobs

/-- What assigning `notifications` logs. -/
def renewal (d : Direct κ) : List Obs :=
  (if d.notifications.isSome then [.closed d.assembler.buf] else []) ++ [.opened]

/-- A fresh subscription is in place. The assembler is as it was. -/
def renewed (d : Direct κ) (conn : Connection) (n : Notifications) : Direct κ :=
  { d with conn, notifications := some n }

theorem assign_run (tape : List Answer) (log : List Obs) (d : Direct κ) (n : Notifications) :
    assign n ⟨tape, log, d⟩ = (some (), ⟨tape, log ++ d.renewal, d.renewed d.conn n⟩) := by
  simp only [assign, Await.get, Await.modify, Await.observe, bind]
  cases hn : d.notifications <;> simp [renewal, renewed, hn]

theorem wp_assign {Q : Unit → List Obs → Direct κ → Prop} {n : Notifications}
    (h : Q () (log ++ d.renewal) (d.renewed d.conn n)) : Await.wp (assign n) Q E log d := by
  unfold assign
  refine Await.wp_bind (Await.wp_get.mpr ?_)
  cases hn : d.notifications with
  | none =>
    refine Await.wp_bind (Await.wp_modify.mpr (Await.wp_observe.mpr ?_))
    simpa [renewal, renewed, hn] using h
  | some m =>
    refine Await.wp_bind (Await.wp_observe.mpr (Await.wp_bind (Await.wp_modify.mpr
      (Await.wp_observe.mpr ?_))))
    simpa [renewal, renewed, hn] using h

/-- A subscription on the link as it is. -/
theorem listen_run (tape : List Answer) (log : List Obs) (d : Direct κ) :
    listen ⟨tape, log, d⟩ = match tape with
      | .subscribe (.ok ()) :: rest => (some (.ok ()), ⟨rest, log ++ [.listen true] ++ d.renewal,
          d.renewed d.conn ⟨d.conn.connects⟩⟩)
      | .subscribe (.error e) :: rest => (some (.error e), ⟨rest, log ++ [.listen false], d⟩)
      | _ => (none, ⟨tape, log, d⟩) := by
  simp only [listen, adopt, onLink, Await.zoom, Connection.listen, Await.await, Await.observe,
    Await.get, bind, pure]
  cases tape with
  | nil => rfl
  | cons answer rest =>
    cases answer with
    | subscribe result =>
      cases result with
      | ok _ => simp only [Answer.asSubscribe, assign_run]
      | error e => rfl
    | _ => rfl

theorem wp_adopt {x : Await Answer Obs Connection (Except String Notifications)}
    {Q : Except String Unit → List Obs → Direct κ → Prop} (hx : LinkOnly x)
    (hE : ∀ obs conn, OnLink obs → E (log ++ obs) { d with conn })
    (herror : ∀ e obs conn, OnLink obs → Q (.error e) (log ++ obs) { d with conn })
    (hok : ∀ obs conn n, OnLink obs → Q (.ok ()) (log ++ obs ++ d.renewal) (d.renewed conn n)) :
    Await.wp (adopt x) Q E log d := by
  unfold adopt
  refine Await.wp_bind (wp_onLink hx hE fun r obs conn hobs => ?_)
  cases r with
  | error e => exact Await.wp_pure.mpr (herror e obs conn hobs)
  | ok n => exact Await.wp_bind (wp_assign (Await.wp_pure.mpr (hok obs conn n hobs)))

/-- A write keeps the subscription or renews it, where it re-established the link. -/
theorem wp_write {payload : List UInt8} {Q : Except String Unit → List Obs → Direct κ → Prop}
    (hE : ∀ obs conn, OnLink obs → E (log ++ obs) { d with conn })
    (herror : ∀ e obs conn, OnLink obs → Q (.error e) (log ++ obs) { d with conn })
    (hkept : ∀ obs conn, OnLink obs → Q (.ok ()) (log ++ obs) { d with conn })
    (hrenewed : ∀ obs conn n, OnLink obs →
      Q (.ok ()) (log ++ obs ++ d.renewal) (d.renewed conn n)) :
    Await.wp (write payload) Q E log d := by
  unfold write
  refine Await.wp_bind (wp_onLink (linkOnly_write payload) hE fun r obs conn hobs => ?_)
  obtain e | _ | _ := r
  · exact Await.wp_pure.mpr (herror e obs conn hobs)
  · exact Await.wp_pure.mpr (hkept obs conn hobs)
  · unfold listen
    refine wp_adopt linkOnly_listen (fun obs' conn' hobs' => ?_) (fun e obs' conn' hobs' => ?_)
      fun obs' conn' n hobs' => ?_
    · rw [List.append_assoc]
      exact hE _ conn' (hobs.append hobs')
    · rw [List.append_assoc]
      exact herror e _ conn' (hobs.append hobs')
    · rw [List.append_assoc log obs obs']
      exact hrenewed _ conn' n (hobs.append hobs')

end Direct

/-! ## One-shot commands -/

/-- Only whole frames so far, and where the next notification is awaited the
assembler holds nothing but what the subscription in place has sent. -/
structure Clean (kind : FrameKind) (log : List Obs) (assembler : FrameAssembler) : Prop where
  frames : FromOneStream log
  polled : log.getLast? = some (.awaiting kind) → Received log [] assembler

namespace Clean

variable {kind : FrameKind} {log obs : List Obs} {assembler : FrameAssembler}

theorem onLink (h : Clean kind log assembler) (hobs : OnLink obs) :
    Clean kind (log ++ obs) assembler := by
  refine ⟨h.frames.onLink hobs, fun hlast => ?_⟩
  cases hnil : obs.getLast? with
  | none =>
    obtain rfl := List.getLast?_eq_none_iff.mp hnil
    simpa using h.polled (by simpa using hlast)
  | some o =>
    have ho : o = .awaiting kind := by simpa [List.getLast?_append, hnil] using hlast
    have hlink := hobs o (List.mem_of_getLast? hnil)
    rw [ho] at hlink
    cases hlink

theorem of_last {o : Obs} (h : FromOneStream (log ++ [o])) (ho : o ≠ .awaiting kind) :
    Clean kind (log ++ [o]) assembler :=
  ⟨h, fun hlast => absurd (by simpa using hlast) ho⟩

end Clean

theorem FromOneStream.renewal {κ : Type} {log : List Obs} (h : FromOneStream log) (d : Direct κ) :
    FromOneStream (log ++ d.renewal) := by
  refine Always.append h fun o ho pre frame hframe => ?_
  unfold Direct.renewal at ho
  split at ho
  · obtain rfl | rfl : o = _ ∨ o = _ := by simpa using ho
    all_goals cases hframe
  · obtain rfl : o = _ := by simpa using ho
    cases hframe

theorem fresh_renewal {κ : Type} (log : List Obs) (d : Direct κ) : Fresh (log ++ d.renewal) := by
  rw [Direct.renewal, ← List.append_assoc]
  exact fresh_opened _

theorem Clean.renewal {κ : Type} {kind : FrameKind} {log : List Obs} {assembler : FrameAssembler}
    (h : FromOneStream log) (d : Direct κ) : Clean kind (log ++ d.renewal) assembler := by
  have hrenewal := h.renewal d
  rw [Direct.renewal, ← List.append_assoc] at hrenewal ⊢
  exact .of_last hrenewal (by simp)

namespace Direct

variable {κ : Type} {log : List Obs} {d : Direct κ}

/-- Frames taken one after the other, of those that are due. -/
theorem wp_takeAll {taker : Taker} {E : List Obs → Direct κ → Prop} {rest : FrameAssembler}
    {pending : List (List UInt8)} {Q : Unit → List Obs → Direct κ → Prop}
    (frames : List (List UInt8)) :
    ∀ {log : List Obs}, FromOneStream log → Received log (frames ++ pending) rest →
      (∀ log', FromOneStream log' → Received log' pending rest → Q () log' d) →
      Await.wp (takeAll taker frames) Q E log d := by
  induction frames with
  | nil =>
    intro log hframes hreads hQ
    exact Await.wp_pure.mpr (hQ log hframes hreads)
  | cons frame frames ih =>
    intro log hframes hreads hQ
    exact Await.wp_bind (Await.wp_observe.mpr
      (ih (hframes.took hreads taker) (hreads.took taker) hQ))

/-- The wait ends with a frame made of one subscription's bytes, or the stream
ended and the assembler holds only what it had sent. -/
theorem wp_nextMatchingFrame {kind : FrameKind} (hframes : FromOneStream log)
    (hreads : Received log [] d.assembler) :
    Await.wp (nextMatchingFrame kind)
      (fun r log' d' => match r with
        | some frame => FromOneStream log' ∧ ∃ pre, log' = pre ++ [.took frame (.reply kind)]
        | none => FromOneStream log' ∧ Received log' [] d'.assembler)
      (fun log' d' => Clean kind log' d'.assembler) log d := by
  unfold nextMatchingFrame
  refine Await.wp_loop (I := fun log' d' => FromOneStream log' ∧ Received log' [] d'.assembler)
    ⟨hframes, hreads⟩ (fun log' d' h => ⟨h.1, fun _ => h.2⟩) ?_
  intro log d h
  obtain ⟨hframes, hreads⟩ := h
  have hasked : FromOneStream (log ++ [.awaiting kind]) := hframes.concat rfl
  have hasked' := hreads.awaiting kind
  unfold nextMatchingTurn
  refine Await.wp_bind (Await.wp_observe.mpr (Await.wp_bind
    (Await.wp_await ⟨hasked, fun _ => hasked'⟩ fun _ event _ => ?_)))
  cases event with
  | none => exact Await.wp_pure.mpr ⟨hasked, hasked'⟩
  | some event =>
    dsimp only
    split
    · exact Await.wp_pure.mpr ⟨hasked, hasked'⟩
    · have hrx := hasked'.rx event.value
      rw [drain_eq_pull kind.matches (d.assembler.feed event.value)] at hrx
      refine Await.wp_bind (Await.wp_observe.mpr (Await.wp_bind (Await.wp_get.mpr
        (Await.wp_bind (Await.wp_modify.mpr (Await.wp_bind ?_))))))
      refine wp_takeAll _ (hasked.concat rfl) hrx fun log' hframes' hreads' => ?_
      cases hhit : ((d.assembler.feed event.value).pull kind.matches).2.1 with
      | none =>
        rw [hhit, drain_of_dry hhit] at hreads'
        exact Await.wp_pure.mpr ⟨hframes', hreads'⟩
      | some frame =>
        rw [hhit] at hreads'
        exact Await.wp_bind (Await.wp_observe.mpr (Await.wp_pure.mpr
          ⟨hframes'.took hreads' _, log', rfl⟩))

/-- How a one-shot command ends: its reply is the last frame that was taken. -/
def Ended (kind : FrameKind) (r : Except String (List UInt8)) (log : List Obs)
    (assembler : FrameAssembler) : Prop :=
  Clean kind log assembler ∧ ∀ frame, r = .ok frame → ∃ pre, log = pre ++ [.took frame (.reply kind)]

theorem Ended.error {kind : FrameKind} {e : String} {assembler : FrameAssembler}
    (h : Clean kind log assembler) : Ended kind (.error e) log assembler :=
  ⟨h, fun _ heq => nomatch heq⟩

/-- The assembler is empty when the wait begins and each time the command was sent
again, and by then the subscription has received nothing. -/
theorem wp_wait {payload : List UInt8} {kind : FrameKind} (hframes : FromOneStream log)
    (hfresh : Fresh log) :
    Await.wp (wait payload kind) (fun r log' d' => Ended kind r log' d'.assembler)
      (fun log' d' => Clean kind log' d'.assembler) log d := by
  unfold wait
  refine Await.wp_bind (Await.wp_modify.mpr (Await.wp_loop
    (I := fun log' d' => FromOneStream log' ∧ Received log' [] d'.assembler)
    ⟨hframes, hfresh.reads_iff.mpr rfl⟩ (fun log' d' h => ⟨h.1, fun _ => h.2⟩) ?_))
  intro log d h
  obtain ⟨hframes, hreads⟩ := h
  unfold waitTurn
  refine Await.wp_bind (Await.wp_mono (wp_nextMatchingFrame hframes hreads) ?_ fun _ _ h => h)
  intro r log d h
  cases r with
  | some frame =>
    obtain ⟨hframes, pre, rfl⟩ := h
    refine Await.wp_pure.mpr ⟨.of_last hframes (by simp), fun frame' heq => ?_⟩
    cases heq
    exact ⟨pre, rfl⟩
  | none =>
    obtain ⟨hframes, hreads⟩ := h
    have hclean : Clean kind log d.assembler := ⟨hframes, fun _ => hreads⟩
    refine Await.wp_bind (wp_adopt linkOnly_reconnectStream (fun _ _ hobs => hclean.onLink hobs)
      (fun e _ _ hobs => Await.wp_pure.mpr (.error (hclean.onLink hobs))) fun obs conn n hobs => ?_)
    have hback := (hframes.onLink hobs).renewal d
    have hfresh := fresh_renewal (log ++ obs) d
    have hclean' : Clean kind (log ++ obs ++ d.renewal) d.assembler :=
      .renewal (hframes.onLink hobs) d
    -- sent again, and cleared
    have hagain : ∀ {log : List Obs} {d : Direct κ}, FromOneStream log → Fresh log →
        Await.wp (do clear; pure none)
          (fun (r : Option (Except String (List UInt8))) log' d' => match r with
            | some r => Ended kind r log' d'.assembler
            | none => FromOneStream log' ∧ Received log' [] d'.assembler)
          (fun log' d' => Clean kind log' d'.assembler) log d := fun hframes hfresh =>
      Await.wp_bind (Await.wp_modify.mpr (Await.wp_pure.mpr ⟨hframes, hfresh.reads_iff.mpr rfl⟩))
    refine Await.wp_bind (wp_write (fun _ _ hobs' => hclean'.onLink hobs')
      (fun e _ _ hobs' => Await.wp_pure.mpr (.error (hclean'.onLink hobs')))
      (fun _ _ hobs' => hagain (hback.onLink hobs') (hfresh.onLink hobs'))
      fun _ _ _ hobs' => hagain ((hback.onLink hobs').renewal _) (fresh_renewal _ _))

theorem wp_oneshot (payload : List UInt8) (kind : FrameKind) (conn : Connection) (captured : κ) :
    Await.wp (oneshot payload kind) (fun r log' d' => Ended kind r log' d'.assembler)
      (fun log' d' => Clean kind log' d'.assembler) [] (new conn captured) := by
  have hstart : Clean kind [] (new conn captured).assembler := ⟨fromOneStream_nil, by simp⟩
  unfold oneshot
  refine Await.wp_bind (wp_adopt linkOnly_listen (fun _ _ hobs => hstart.onLink hobs)
    (fun e _ _ hobs => Await.wp_pure.mpr (.error (hstart.onLink hobs))) fun obs c n hobs => ?_)
  have hframes := (fromOneStream_nil.onLink hobs).renewal (new conn captured)
  have hfresh := fresh_renewal ([] ++ obs) (new conn captured)
  have hclean : Clean kind ([] ++ obs ++ (new conn captured).renewal) FrameAssembler.new :=
    .renewal (fromOneStream_nil.onLink hobs) _
  have hwait : ∀ {log : List Obs} {d : Direct κ}, FromOneStream log → Fresh log →
      Await.wp (Await.timeout Answer.isTimeout (wait payload kind))
        (fun r log' d' => Ended kind (r.getD (.error "command timed out")) log' d'.assembler)
        (fun log' d' => Clean kind log' d'.assembler) log d := by
    intro log d hframes hfresh
    exact Await.wp_timeout (Await.wp_mono (wp_wait hframes hfresh) (fun _ _ _ h => h)
      fun _ _ h => ⟨h, .error h⟩)
  refine Await.wp_bind (wp_write (fun _ _ hobs' => hclean.onLink hobs')
    (fun e _ _ hobs' => Await.wp_pure.mpr (.error (hclean.onLink hobs')))
    (fun _ _ hobs' => ?_) fun _ _ _ hobs' => ?_)
  · refine Await.wp_bind (Await.wp_mono (hwait (hframes.onLink hobs') (hfresh.onLink hobs'))
      (fun r _ _ h => ?_) fun _ _ h => h)
    cases r <;> exact Await.wp_pure.mpr h
  · refine Await.wp_bind (Await.wp_mono (hwait ((hframes.onLink hobs').renewal _)
      (fresh_renewal _ _)) (fun r _ _ h => ?_) fun _ _ h => h)
    cases r <;> exact Await.wp_pure.mpr h

/-- What a run of `oneshot` comes to: every frame is made of the bytes of one
subscription, the reply is the last of them, and wherever the next notification
is awaited the assembler holds nothing from before the subscription in place. -/
structure OneshotWhole (kind : FrameKind)
    (r : Option (Except String (List UInt8)) × Stage Answer Obs (Direct κ)) : Prop where
  frames : FromOneStream r.2.log
  reply : ∀ frame, r.1 = some (.ok frame) → ∃ pre, r.2.log = pre ++ [.took frame (.reply kind)]
  polled : r.2.log.getLast? = some (.awaiting kind) → Received r.2.log [] r.2.state.assembler

theorem oneshotWhole (payload : List UInt8) (kind : FrameKind) (conn : Connection) (captured : κ)
    (tape : List Answer) :
    OneshotWhole kind (oneshot payload kind ⟨tape, [], new conn captured⟩) := by
  have hrun := wp_oneshot payload kind conn captured tape
  revert hrun
  match oneshot payload kind ⟨tape, [], new conn captured⟩ with
  | (some r, t) =>
    rintro ⟨hclean, hreply⟩
    exact ⟨hclean.frames, fun frame hr => hreply frame (Option.some.inj hr), hclean.polled⟩
  | (none, t) => exact fun hclean => ⟨hclean.frames, by simp, hclean.polled⟩

/-! ## Subscriptions -/

section Subscribe

variable {payload : List UInt8} {onFrame : List UInt8 → κ → Bool × κ}

theorem wp_offer {E : List Obs → Direct κ → Prop} {rest assembler : FrameAssembler}
    (frames : List (List UInt8)) :
    ∀ {log : List Obs} {d : Direct κ}, FromOneStream log → Received log frames rest →
      d.assembler = assembler →
      Await.wp (offer onFrame frames)
        (fun isBreak log' d' => FromOneStream log' ∧ d'.assembler = assembler ∧
          (isBreak = false → Received log' [] rest)) E log d := by
  induction frames with
  | nil =>
    intro log d hframes hreads hasm
    exact Await.wp_pure.mpr ⟨hframes, hasm, fun _ => hreads⟩
  | cons frame frames ih =>
    intro log d hframes hreads hasm
    have htook := hframes.took hreads .notification
    refine Await.wp_bind (Await.wp_observe.mpr (Await.wp_bind (Await.wp_get.mpr (Await.wp_bind
      (Await.wp_modify.mpr ?_)))))
    split
    · exact Await.wp_pure.mpr ⟨htook, hasm, by simp⟩
    · exact ih htook (hreads.took _) hasm

/-- Whatever is not a tick leaves only what the subscription in place has sent. -/
theorem wp_handleEvent_notification (event : Option ValueNotification)
    (hframes : FromOneStream log) (hreads : Received log [] d.assembler) :
    Await.wp (handleEvent payload onFrame (.notification event))
      (fun r log' d' => FromOneStream log' ∧ (r = none → Received log' [] d'.assembler))
      (fun log' _ => FromOneStream log') log d := by
  cases event with
  | none =>
    unfold handleEvent
    refine Await.wp_bind (wp_adopt linkOnly_reconnectStream (fun _ _ hobs => hframes.onLink hobs)
      (fun e _ _ hobs => Await.wp_pure.mpr
        ⟨hframes.onLink hobs, by simp⟩) fun obs conn n hobs => ?_)
    refine Await.wp_bind (Await.wp_modify.mpr (Await.wp_pure.mpr
      ⟨(hframes.onLink hobs).renewal d, fun _ => ?_⟩))
    exact (fresh_renewal _ d).reads_iff.mpr rfl
  | some event =>
    unfold handleEvent
    dsimp only
    split
    · exact Await.wp_pure.mpr ⟨hframes, fun _ => hreads⟩
    · refine Await.wp_bind (Await.wp_observe.mpr (Await.wp_bind (Await.wp_get.mpr (Await.wp_bind
        (Await.wp_modify.mpr (Await.wp_bind (Await.wp_mono (wp_offer _ (hframes.concat rfl)
          (hreads.rx event.value) rfl) ?_ fun _ _ h => h)))))))
      intro isBreak log' d' h
      obtain ⟨hframes', hasm, hdone⟩ := h
      cases isBreak with
      | true => exact Await.wp_pure.mpr ⟨hframes', by simp⟩
      | false => exact Await.wp_pure.mpr ⟨hframes', fun _ => by rw [hasm]; exact hdone rfl⟩

/-- The write of a tick re-established the link, and the subscription after it
succeeded. -/
def renews (payload : List UInt8) (s : Subscription κ) : Event × List Answer → Bool
  | (.tick, tape) =>
    match Connection.write payload ⟨tape, s.log, s.direct.conn⟩ with
    | (some (.ok true), ⟨[.subscribe (.ok ())], _, _⟩) => true
    | _ => false
  | (.notification _, _) => false

/-- A tick that renews the subscription finds the assembler empty. -/
def RenewsEmpty (payload : List UInt8) (s : Subscription κ) (label : Event × List Answer) : Prop :=
  renews payload s label = true → s.direct.assembler = .new

instance (s : Subscription κ) (label : Event × List Answer) :
    Decidable (RenewsEmpty payload s label) :=
  inferInstanceAs (Decidable (_ → _))

/-- Every frame handed to `on_frame` is made of the bytes of one subscription, and
while the loop goes on the assembler holds nothing that came before the
subscription in place. -/
structure Whole (s : Subscription κ) : Prop where
  frames : FromOneStream s.log
  assembler : s.progress = .running → Received s.log [] s.direct.assembler

theorem Whole.ended {s : Subscription κ} (hend : s.progress ≠ .running)
    (hframes : FromOneStream s.log) : Whole s :=
  ⟨hframes, fun hgo => absurd hgo hend⟩

/-- A part of the loop, by where it left it. -/
theorem after_of_wp {x : DirectM κ (Option (Except String Unit))}
    {Q : Option (Except String Unit) → List Obs → Direct κ → Prop} {E : List Obs → Direct κ → Prop}
    {tape : List Answer} {t : Subscription κ} (h : Await.wp x Q E log d)
    (hafter : Subscription.after (x ⟨tape, log, d⟩) = some t) :
    (t.progress = .running ∧ Q none t.log t.direct) ∨
      (∃ r, t.progress = .returned r ∧ Q (some r) t.log t.direct) ∨
      (t.progress = .dropped ∧ E t.log t.direct) := by
  have hx := h tape
  revert hx hafter
  obtain ⟨r, tape', log', d'⟩ := x ⟨tape, log, d⟩
  intro hafter hx
  cases tape' with
  | cons _ _ => obtain _ | _ | _ := r <;> cases hafter
  | nil =>
    obtain _ | _ | r := r
    · cases hafter
      exact .inr (.inr ⟨rfl, hx⟩)
    · cases hafter
      exact .inl ⟨rfl, hx⟩
    · cases hafter
      exact .inr (.inl ⟨r, rfl, hx⟩)

theorem whole_notification {s t : Subscription κ} {event : Option ValueNotification}
    {tape : List Answer} (h : Whole s) (hrunning : s.progress = .running)
    (hafter : Subscription.after
      (handleEvent payload onFrame (.notification event) ⟨tape, s.log, s.direct⟩) = some t) :
    Whole t := by
  obtain ⟨-, hframes, hreads⟩ | ⟨r, hend, hframes, -⟩ | ⟨hend, hframes⟩ :=
    after_of_wp (wp_handleEvent_notification event h.frames (h.assembler hrunning)) hafter
  · exact ⟨hframes, fun _ => hreads rfl⟩
  · exact .ended (by simp [hend]) hframes
  · exact .ended (by simp [hend]) hframes

/-- A tick leaves the assembler as it is, so where it renews the subscription
nothing may be left in there. -/
theorem whole_tick {s t : Subscription κ} {tape : List Answer} (h : Whole s)
    (hrunning : s.progress = .running)
    (hafter : Subscription.after
      (handleEvent payload onFrame .tick ⟨tape, s.log, s.direct⟩) = some t) :
    Whole t ↔ RenewsEmpty payload s (.tick, tape) := by
  have hlink := linkOnly_write payload s.log s.direct.conn tape
  have hreads := h.assembler hrunning
  unfold RenewsEmpty renews
  revert hafter hlink
  simp only [handleEvent, write, onLink, Await.zoom, bind]
  obtain ⟨result, tape', log', conn⟩ := Connection.write payload ⟨tape, s.log, s.direct.conn⟩
  cases result with
  | none =>
    intro hafter hlog
    obtain ⟨obs, hobs, rfl⟩ := hlog
    cases tape' with
    | nil =>
      cases hafter
      exact iff_of_true (.ended (by simp) (h.frames.onLink hobs)) (by simp)
    | cons _ _ => cases hafter
  | some result =>
    intro hafter hlog
    obtain ⟨obs, hobs, rfl⟩ := hlog
    have hframes := h.frames.onLink hobs
    obtain e | _ | _ := result
    · cases tape' with
      | nil =>
        cases hafter
        exact iff_of_true (.ended (by simp) hframes) (by simp)
      | cons _ _ => cases hafter
    · cases tape' with
      | nil =>
        cases hafter
        exact iff_of_true ⟨hframes, fun _ => hreads.onLink hobs⟩ (by simp)
      | cons _ _ => cases hafter
    · simp only [listen_run] at hafter
      obtain _ | ⟨answer, rest⟩ := tape'
      · cases hafter
        exact iff_of_true (.ended (by simp) hframes) (by simp)
      · cases answer with
        | subscribe result =>
          obtain e | _ := result
          · cases rest with
            | nil =>
              cases hafter
              exact iff_of_true (.ended (by simp) (hframes.concat rfl)) (by simp)
            | cons _ _ => cases hafter
          · cases rest with
            -- the subscription is renewed, and the assembler is not touched
            | nil =>
              cases hafter
              have hlisten := hframes.concat (o := .listen true) rfl
              have hfresh := fresh_renewal (s.log ++ obs ++ [.listen true]) s.direct
              constructor
              · intro hwhole _
                exact hfresh.reads_iff.mp (hwhole.assembler rfl)
              · intro hnew
                exact ⟨hlisten.renewal s.direct, fun _ => hfresh.reads_iff.mpr (hnew rfl)⟩
            | cons _ _ => cases hafter
        | _ => cases hafter

/-- A step from where everything is whole leads to where everything is, unless it
renews the subscription with something left in the assembler. -/
theorem whole_step {s t : Subscription κ} {label : Event × List Answer} (h : Whole s)
    (hstep : Subscription.step payload onFrame s label = some t) :
    Whole t ↔ RenewsEmpty payload s label := by
  obtain ⟨event, tape⟩ := label
  simp only [Subscription.step] at hstep
  split at hstep
  case isFalse => cases hstep
  case isTrue hrunning =>
    cases event with
    | tick => exact whole_tick h hrunning hstep
    | notification event =>
      exact iff_of_true (whole_notification h hrunning hstep) (by simp [RenewsEmpty, renews])

theorem whole_start {conn : Connection} {captured : κ} {tape : List Answer} {s : Subscription κ}
    (h : Subscription.start conn captured tape = some s) : Whole s := by
  have hopening : Await.wp (opening (κ := κ))
      (fun r log' d' => FromOneStream log' ∧ (r = none → Received log' [] d'.assembler))
      (fun log' _ => FromOneStream log') [] (.new conn captured) := by
    unfold opening
    refine Await.wp_bind (wp_adopt linkOnly_listen (fun _ _ hobs => fromOneStream_nil.onLink hobs)
      (fun _ _ _ hobs => Await.wp_pure.mpr ⟨fromOneStream_nil.onLink hobs, by simp⟩)
      fun _ _ _ hobs => Await.wp_pure.mpr ⟨(fromOneStream_nil.onLink hobs).renewal _, fun _ => ?_⟩)
    exact (fresh_renewal _ _).reads_iff.mpr rfl
  obtain ⟨-, hframes, hreads⟩ | ⟨r, hend, hframes, -⟩ | ⟨hend, hframes⟩ := after_of_wp hopening h
  · exact ⟨hframes, fun _ => hreads rfl⟩
  · exact .ended (by simp [hend]) hframes
  · exact .ended (by simp [hend]) hframes

/-- **No frame straddles two links**: in `oneshot` none does, and at every poll the
assembler holds only what the subscription in place has sent. In `subscribe` all
of this holds at every point of a run exactly when no tick renews the
subscription with something left in the assembler. -/
theorem frames_whole_iff (payload : List UInt8) (onFrame : List UInt8 → κ → Bool × κ)
    (conn : Connection) (captured : κ) {tape : List Answer} {labels : List (Event × List Answer)}
    {s t : Subscription κ} (hstart : Subscription.start conn captured tape = some s)
    (hrun : Transition.run (Subscription.step payload onFrame) s labels = some t) :
    (∀ command kind answers, OneshotWhole kind
      (oneshot command kind ⟨answers, [], new conn captured⟩)) ∧
    ((∀ pre u, pre <+: labels →
        Transition.run (Subscription.step payload onFrame) s pre = some u → Whole u) ↔
      Transition.Meets (Subscription.step payload onFrame) (RenewsEmpty payload) s labels) :=
  ⟨fun command kind => oneshotWhole command kind conn captured,
    Transition.visits_iff (fun _ _ _ h hstep => whole_step h hstep) labels s t (whole_start hstart)
      hrun⟩

end Subscribe

/-- A callback that counts the frames it is handed, and breaks at none. -/
def counting (_ : List UInt8) (n : Nat) : Bool × Nat := (false, n + 1)

/-- The stream ends in the middle of a frame, and after it a tick's write has to
reconnect. -/
def dropped : List (Event × List Answer) :=
  [(.notification (some ⟨cRx, (generate turnOn).take 4⟩), []),
    (.notification none, [.attempt (.ok [cTx, cRx]), .subscribe (.ok ())]),
    (.tick, [.deviceWrite (.error "Not connected"), .attempt (.ok [cTx, cRx]),
      .deviceWrite (.ok ()), .subscribe (.ok ())]),
    (.notification (some ⟨cRx, generate turnOn⟩), [])]

theorem frames_whole_iff_dropped : ∃ s t,
    Subscription.start ⟨1⟩ 0 [.subscribe (.ok ())] = some s ∧
    Transition.run (Subscription.step monitoring counting) s dropped = some t ∧
    t.direct.captured = 1 ∧
    ((∀ command kind answers, OneshotWhole kind
        (oneshot command kind ⟨answers, [], new ⟨1⟩ 0⟩)) ∧
      ((∀ pre u, pre <+: dropped →
          Transition.run (Subscription.step monitoring counting) s pre = some u → Whole u) ↔
        Transition.Meets (Subscription.step monitoring counting) (RenewsEmpty monitoring) s
          dropped)) := by
  have hchecks : ((Subscription.start ⟨1⟩ 0 [.subscribe (.ok ())]).any fun s =>
      (Transition.run (Subscription.step monitoring counting) s dropped).any
        fun t => decide (t.direct.captured = 1)) = true := by decide +kernel
  obtain ⟨s, hstart, hs⟩ := (Option.any_eq_true _ _).mp hchecks
  obtain ⟨t, hrun, hone⟩ := (Option.any_eq_true _ _).mp hs
  exact ⟨s, t, hstart, hrun, of_decide_eq_true hone, frames_whole_iff _ _ _ _ hstart hrun⟩

/-- The first half of a frame arrives on one link and the second on the next, and
a tick's write reconnects between them: the two make one frame. -/
def straddled : List (Event × List Answer) :=
  [(.notification (some ⟨cRx, (generate turnOn).take 4⟩), []),
    (.tick, [.deviceWrite (.error "Not connected"), .attempt (.ok [cTx, cRx]),
      .deviceWrite (.ok ()), .subscribe (.ok ())]),
    (.notification (some ⟨cRx, (generate turnOn).drop 4⟩), [])]

theorem not_whole_straddled : ∃ s t,
    Subscription.start ⟨1⟩ 0 [.subscribe (.ok ())] = some s ∧
    Transition.run (Subscription.step monitoring counting) s straddled = some t ∧
    t.direct.captured = 1 ∧ ¬ FromOneStream t.log := by
  have hchecks : ((Subscription.start ⟨1⟩ 0 [.subscribe (.ok ())]).any fun s =>
      (Transition.run (Subscription.step monitoring counting) s straddled).any
        fun t => decide (t.direct.captured = 1 ∧ ¬ FromOneStream t.log)) = true := by decide +kernel
  obtain ⟨s, hstart, hs⟩ := (Option.any_eq_true _ _).mp hchecks
  obtain ⟨t, hrun, hbad⟩ := (Option.any_eq_true _ _).mp hs
  exact ⟨s, t, hstart, hrun, of_decide_eq_true hbad⟩

end Direct

end Btwattch2
