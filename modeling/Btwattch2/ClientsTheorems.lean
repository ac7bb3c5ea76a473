/-
Btwattch2.ClientsTheorems — the fan-out: what each client is fed, whatever the
others do.

`Feed` is one client's side of the list: whether it is listed, and its queue.
Everything the list does is visible to it as one of a few local operations
(`project`), and the operations of other clients are not visible at all. The
list simulates all these feeds at once (`feed_run`), so what a client is given
is a fact about its own feed: a prefix of what a listener who never falls behind
would get (`given_prefix`). What it is given it reads, but for what is still in its
queue (`kept_run`).
-/
import Btwattch2.Clients

namespace Btwattch2

/-! ## One client's side -/

/-- One client's side of the fan-out. -/
structure Feed where
  listed : Bool
  chan : Chan

/-- What one client sees of the operations on the list. -/
inductive FeedOp where
  | add
  | broadcast (response : Response)
  | reap
  /-- `abort` or `end`: a last message, and off the list. -/
  | finish (response : Response)
  | act (a : ClientAct)

/-- Something is sent to the client. -/
def FeedOp.sends : FeedOp → Bool
  | .broadcast _ | .finish _ => true
  | _ => false

namespace Feed

def apply (f : Feed) : FeedOp → Feed
  | .add => { f with listed := true }
  | .broadcast response =>
    if f.listed then
      let r := Clients.retainSent response f.chan
      ⟨r.1, r.2⟩
    else f
  | .reap => { f with listed := f.listed && !f.chan.closed }
  | .finish response =>
    if f.listed then ⟨false, (Clients.retainSent response f.chan).2⟩ else f
  | .act a => { f with chan := f.chan.act a }

def run (f : Feed) (ops : List FeedOp) : Feed := ops.foldl apply f

end Feed

/-- The part of an operation that concerns one client. -/
def ClientOp.project (c : ClientId) : ClientOp → Option FeedOp
  | .add tx => if tx = c then some .add else none
  | .broadcast response => some (.broadcast response)
  | .reap => some .reap
  | .abort reason => some (.finish (.error reason))
  | .end_ => some (.finish .streamEnd)
  | .act tx a => if tx = c then some (.act a) else none

/-- Something is sent to every client on the list. -/
def ClientOp.sends : ClientOp → Bool
  | .broadcast _ | .abort _ | .end_ => true
  | _ => false

theorem ClientOp.sends_project {op : ClientOp} {o : FeedOp} {c : ClientId}
    (h : op.project c = some o) : op.sends = o.sends := by
  cases op with
  | add tx | act tx a =>
    simp only [project] at h
    split at h
    · cases h
      rfl
    · cases h
  | _ =>
    cases h
    rfl

/-- The client an operation puts on the list. -/
def ClientOp.added : ClientOp → Option ClientId
  | .add tx => some tx
  | _ => none

namespace Clients

def feed (clients : Clients) (c : ClientId) : Feed :=
  ⟨decide (c ∈ clients.list), clients.chans c⟩

theorem feed_broadcast {clients : Clients} (h : clients.list.Nodup) (response : Response)
    (c : ClientId) :
    (clients.broadcast response).feed c = (clients.feed c).apply (.broadcast response) := by
  have hfeed : (clients.broadcast response).feed c =
      ⟨decide (c ∈ (Lib.sweep (retainSent response) clients.list clients.chans).1),
        (Lib.sweep (retainSent response) clients.list clients.chans).2 c⟩ := by
    unfold broadcast
    dsimp only
    split <;> rfl
  rw [hfeed, Lib.sweep_eq _ _ _ h]
  by_cases hc : c ∈ clients.list <;> simp [feed, Feed.apply, hc]

theorem feed_reap (clients : Clients) (c : ClientId) :
    clients.reap.feed c = (clients.feed c).apply .reap := by
  unfold reap
  split
  case isTrue h => simp [feed, Feed.apply, publishCount]
  case isFalse h =>
    have hopen : ∀ tx ∈ clients.list, (clients.chans tx).closed = false := by simpa using h
    by_cases hc : c ∈ clients.list
    · simp [feed, Feed.apply, hc, hopen c hc]
    · simp [feed, Feed.apply, hc]

theorem feed_finish {clients : Clients} (h : clients.list.Nodup) (response : Response)
    (c : ClientId) :
    (sendEach response clients.take.1 clients.take.2).feed c =
      (clients.feed c).apply (.finish response) := by
  simp only [sendEach, take, publishCount, feed, Lib.sweep_eq _ _ _ h]
  by_cases hc : c ∈ clients.list <;> simp [Feed.apply, hc]

/-- Every operation is, for each client, its part of that operation. -/
theorem feed_apply {clients : Clients} {op : ClientOp} (h : clients.list.Nodup)
    (c : ClientId) :
    (clients.apply op).feed c =
      ((op.project c).map (clients.feed c).apply).getD (clients.feed c) := by
  cases op with
  | add tx =>
    by_cases htx : tx = c
    · simp [apply, add, ClientOp.project, htx, feed, Feed.apply, publishCount]
    · simp [apply, add, ClientOp.project, htx, Ne.symm htx, feed, publishCount]
  | broadcast response => exact feed_broadcast h response c
  | reap => exact feed_reap clients c
  | abort reason => exact feed_finish h (.error reason) c
  | end_ => exact feed_finish h .streamEnd c
  | act tx a =>
    have hfeed : (clients.apply (.act tx a)).feed c = ⟨(clients.feed c).listed,
        Function.update clients.chans tx ((clients.chans tx).act a) c⟩ := rfl
    rw [hfeed]
    by_cases htx : tx = c
    · subst htx
      simp [ClientOp.project, feed, Feed.apply]
    · simp [ClientOp.project, htx, Function.update_of_ne (Ne.symm htx), feed]

/-! ### Who is listed -/

/-- The clients the operations put on the list, in order. -/
def addedBy (ops : List ClientOp) : List ClientId := ops.filterMap ClientOp.added

theorem list_apply_sublist {clients : Clients} {op : ClientOp} (h : clients.list.Nodup)
    (hop : op.added = none) : (clients.apply op).list.Sublist clients.list := by
  cases op with
  | add tx => cases hop
  | broadcast response =>
    have hlist : (clients.apply (.broadcast response)).list =
        (Lib.sweep (retainSent response) clients.list clients.chans).1 := by
      show (clients.broadcast response).list = _
      unfold broadcast
      dsimp only
      split <;> rfl
    rw [hlist, Lib.sweep_eq _ _ _ h]
    exact List.filter_sublist
  | reap =>
    show clients.reap.list.Sublist clients.list
    unfold reap
    split
    · exact List.filter_sublist
    · exact List.Sublist.refl _
  | abort reason => exact List.nil_sublist _
  | end_ => exact List.nil_sublist _
  | act tx a => exact List.Sublist.refl _

/-- A client that is put on the list once is never listed twice. -/
theorem nodup_apply {clients : Clients} {op : ClientOp} {ops : List ClientOp}
    (h : (clients.list ++ addedBy (op :: ops)).Nodup) :
    ((clients.apply op).list ++ addedBy ops).Nodup := by
  cases hop : op.added with
  | none =>
    have hsame : addedBy (op :: ops) = addedBy ops := by simp [addedBy, hop]
    rw [hsame] at h
    exact h.sublist ((list_apply_sublist h.of_append_left hop).append_right _)
  | some tx =>
    obtain rfl : op = .add tx := by
      cases op <;> simp_all [ClientOp.added]
    simpa [apply, add, publishCount, addedBy, ClientOp.added] using h

/-- The list simulates every client's feed. -/
theorem feed_run (c : ClientId) : ∀ (ops : List ClientOp) (clients : Clients),
    (clients.list ++ addedBy ops).Nodup →
    (clients.run ops).feed c = (clients.feed c).run (ops.filterMap (ClientOp.project c))
  | [], _, _ => rfl
  | op :: ops, clients, h => by
    have hrest := feed_run c ops (clients.apply op) (nodup_apply h)
    have hrun : clients.run (op :: ops) = (clients.apply op).run ops := rfl
    rw [hrun, hrest, feed_apply h.of_append_left]
    cases hproj : op.project c with
    | none => simp [hproj]
    | some o => simp [hproj, Feed.run]

end Clients

/-! ## What a feed is given -/

/-- What a listener who never falls behind gets: every broadcast up to the first
`abort` or `end`, and that last message. -/
def wholeFeed : List ClientOp → List Response
  | [] => []
  | .broadcast response :: ops => response :: wholeFeed ops
  | .abort reason :: _ => [.error reason]
  | .end_ :: _ => [.streamEnd]
  | _ :: ops => wholeFeed ops

/-- The responses that are broadcast, in order. -/
def broadcastsOf : List ClientOp → List Response :=
  List.filterMap fun
    | .broadcast response => some response
    | _ => none

namespace Feed

/-- `wholeFeed` as one client sees it. -/
def whole : List FeedOp → List Response
  | [] => []
  | .broadcast response :: ops => response :: whole ops
  | .finish response :: _ => [response]
  | _ :: ops => whole ops

theorem whole_project (c : ClientId) : ∀ ops : List ClientOp,
    whole (ops.filterMap (ClientOp.project c)) = wholeFeed ops
  | [] => rfl
  | op :: ops => by
    have ih := whole_project c ops
    cases op with
    | add tx =>
      by_cases htx : tx = c <;> simp [ClientOp.project, htx, whole, wholeFeed, ih]
    | act tx a =>
      by_cases htx : tx = c <;> simp [ClientOp.project, htx, whole, wholeFeed, ih]
    | broadcast response => simp [ClientOp.project, whole, wholeFeed, ih]
    | reap => simp [ClientOp.project, whole, wholeFeed, ih]
    | abort reason => simp [ClientOp.project, whole, wholeFeed]
    | end_ => simp [ClientOp.project, whole, wholeFeed]

/-- What `retainSent` does to a queue: the response goes in and the client is
kept, or neither. -/
theorem retainSent_cases (response : Response) (c : Chan) :
    ((Clients.retainSent response c).1 = true ∧
      (Clients.retainSent response c).2.given = c.given ++ [response]) ∨
    ((Clients.retainSent response c).1 = false ∧ (Clients.retainSent response c).2 = c ∧
      (c.closed = true ∨ c.queue.length = clientQueueLen)) := by
  unfold Clients.retainSent Chan.trySend
  by_cases hclosed : c.closed
  · exact .inr ⟨by simp [hclosed], by simp [hclosed], .inl hclosed⟩
  · by_cases hfull : c.queue.length ≥ clientQueueLen
    · have hlen : c.queue.length = clientQueueLen := Nat.le_antisymm c.bounded hfull
      exact .inr ⟨by simp [hclosed, hfull], by simp [hclosed, hfull], .inr hlen⟩
    · exact .inl ⟨by simp [hclosed, hfull], by simp [hclosed, hfull]⟩

theorem given_act (c : Chan) (a : ClientAct) : (c.act a).given = c.given := by
  cases a <;> rfl

/-- Off the list, nothing is given any more. -/
theorem given_unlisted : ∀ (ops : List FeedOp) (f : Feed), f.listed = false →
    (∀ op ∈ ops, op ≠ .add) → (f.run ops).chan.given = f.chan.given
  | [], _, _, _ => rfl
  | op :: ops, f, hf, hadd => by
    have hlisted : (f.apply op).listed = false := by
      cases op with
      | add => exact absurd rfl (hadd .add (by simp))
      | _ => simp [apply, hf]
    have hgiven : (f.apply op).chan.given = f.chan.given := by
      cases op with
      | act a => exact given_act f.chan a
      | _ => simp [apply, hf]
    have hrest := given_unlisted ops (f.apply op) hlisted fun o ho => hadd o (by simp [ho])
    exact hrest.trans hgiven

/-- A feed is given a prefix of the whole feed. -/
theorem given_prefix : ∀ (ops : List FeedOp) (f : Feed), f.listed = true →
    (∀ op ∈ ops, op ≠ .add) →
    ∃ l, l <+: whole ops ∧ (f.run ops).chan.given = f.chan.given ++ l
  | [], f, _, _ => ⟨[], List.prefix_refl _, by simp [run]⟩
  | op :: ops, f, hf, hadd => by
    have hadd' : ∀ o ∈ ops, o ≠ .add := fun o ho => hadd o (by simp [ho])
    have hrun : f.run (op :: ops) = (f.apply op).run ops := rfl
    rw [hrun]
    cases op with
    | add => exact absurd rfl (hadd .add (by simp))
    | act a =>
      obtain ⟨l, hl, hgiven⟩ := given_prefix ops (f.apply (.act a)) hf hadd'
      refine ⟨l, hl, ?_⟩
      rw [hgiven]
      simp [apply, given_act]
    | reap =>
      by_cases hclosed : f.chan.closed
      · have hrest := given_unlisted ops (f.apply .reap) (by simp [apply, hclosed]) hadd'
        exact ⟨[], List.nil_prefix, by rw [hrest]; simp [apply]⟩
      · obtain ⟨l, hl, hgiven⟩ :=
          given_prefix ops (f.apply .reap) (by simp [apply, hf, hclosed]) hadd'
        exact ⟨l, hl, hgiven⟩
    | broadcast response =>
      have happly : f.apply (.broadcast response) = ⟨(Clients.retainSent response f.chan).1,
          (Clients.retainSent response f.chan).2⟩ := by simp [apply, hf]
      rcases retainSent_cases response f.chan with ⟨hkept, hsent⟩ | ⟨hdropped, hsame, -⟩
      · obtain ⟨l, hl, hgiven⟩ := given_prefix ops (f.apply (.broadcast response))
          (by rw [happly, hkept]) hadd'
        refine ⟨response :: l, (List.prefix_cons_inj response).mpr hl, ?_⟩
        rw [hgiven, happly, hsent]
        simp
      · have hrest := given_unlisted ops (f.apply (.broadcast response))
          (by rw [happly, hdropped]) hadd'
        exact ⟨[], List.nil_prefix, by rw [hrest, happly, hsame]; simp⟩
    | finish response =>
      have hrest := given_unlisted ops (f.apply (.finish response)) (by simp [apply, hf]) hadd'
      have happly : (f.apply (.finish response)).chan = (Clients.retainSent response f.chan).2 := by
        simp [apply, hf]
      rcases retainSent_cases response f.chan with ⟨-, hsent⟩ | ⟨-, hsame, -⟩
      · exact ⟨[response], List.prefix_refl _, by rw [hrest, happly, hsent]⟩
      · exact ⟨[], List.nil_prefix, by rw [hrest, happly, hsame]; simp⟩

/-- The queue stays open and has room whenever something is sent. -/
def KeepsReading : Feed → List FeedOp → Prop
  | _, [] => True
  | f, op :: ops => f.chan.closed = false ∧
      (op.sends = true → f.chan.queue.length < clientQueueLen) ∧ KeepsReading (f.apply op) ops

/-- A feed that is kept up with is given the whole feed. -/
theorem given_whole : ∀ (ops : List FeedOp) (f : Feed), f.listed = true →
    (∀ op ∈ ops, op ≠ .add) → KeepsReading f ops →
    (f.run ops).chan.given = f.chan.given ++ whole ops
  | [], f, _, _, _ => by simp [run, whole]
  | op :: ops, f, hf, hadd, hreads => by
    obtain ⟨hopen, hroom, hreads'⟩ := hreads
    have hadd' : ∀ o ∈ ops, o ≠ .add := fun o ho => hadd o (by simp [ho])
    have hrun : f.run (op :: ops) = (f.apply op).run ops := rfl
    -- an open queue with room takes whatever is sent
    have hsent : op.sends = true → ∀ response, (Clients.retainSent response f.chan).1 = true ∧
        (Clients.retainSent response f.chan).2.given = f.chan.given ++ [response] := by
      intro hsends response
      have := hroom hsends
      rcases retainSent_cases response f.chan with h | ⟨-, -, hclosed | hfull⟩
      · exact h
      · rw [hopen] at hclosed
        cases hclosed
      · omega
    rw [hrun]
    cases op with
    | add => exact absurd rfl (hadd .add (by simp))
    | act a =>
      rw [given_whole ops (f.apply (.act a)) hf hadd' hreads']
      simp [apply, given_act, whole]
    | reap =>
      rw [given_whole ops _ (by simp [apply, hf, hopen]) hadd' hreads']
      simp [apply, whole]
    | broadcast response =>
      obtain ⟨hkept, hgiven⟩ := hsent rfl response
      rw [given_whole ops _ (by simp [apply, hf, hkept]) hadd' hreads']
      simp [apply, hf, hgiven, whole]
    | finish response =>
      obtain ⟨-, hgiven⟩ := hsent rfl response
      rw [given_unlisted ops _ (by simp [apply, hf]) hadd']
      simp [apply, hf, hgiven, whole]

/-- A feed leaves the list for a reason of its own, or because the stream ends. -/
theorem leaves {f : Feed} {op : FeedOp} (hf : f.listed = true)
    (hleft : (f.apply op).listed = false) :
    f.chan.closed = true ∨
      (f.chan.queue.length = clientQueueLen ∧ ∃ response, op = .broadcast response) ∨
      ∃ response, op = .finish response := by
  cases op with
  | add => simp [apply] at hleft
  | act a => simp [apply, hf] at hleft
  | reap => exact .inl (by simpa [apply, hf] using hleft)
  | finish response => exact .inr (.inr ⟨response, rfl⟩)
  | broadcast response =>
    rcases retainSent_cases response f.chan with ⟨hkept, -⟩ | ⟨-, -, hclosed | hfull⟩
    · simp [apply, hf, hkept] at hleft
    · exact .inl hclosed
    · exact .inr (.inl ⟨hfull, response, rfl⟩)

end Feed

/-! ## What a client reads -/

/-- What a client takes out of its queue. -/
def FeedOp.taken (c : Chan) : FeedOp → List Response
  | .act .recv => c.queue.head?.toList
  | _ => []

/-- What was read of a channel, and what it still holds, is what it was given. A client
that hangs up leaves its queue unread. -/
def Chan.Kept (read : List Response) (c : Chan) : Prop :=
  ∃ unread, c.given = read ++ unread ∧ if c.closed then c.queue = [] else unread = c.queue

theorem kept_retainSent {read : List Response} {c : Chan} (h : c.Kept read) (response : Response) :
    (Clients.retainSent response c).2.Kept read := by
  obtain ⟨unread, hgiven, hqueue⟩ := h
  unfold Clients.retainSent Chan.trySend
  dsimp only
  split
  case isTrue => exact ⟨unread, hgiven, hqueue⟩
  case isFalse hopen =>
    split
    case isTrue => exact ⟨unread, hgiven, hqueue⟩
    case isFalse =>
      rw [if_neg hopen] at hqueue
      exact ⟨unread ++ [response], by simp [hgiven], by simp [hopen, hqueue]⟩

theorem Feed.kept_apply {read : List Response} {f : Feed} (h : f.chan.Kept read) (op : FeedOp) :
    (f.apply op).chan.Kept (read ++ op.taken f.chan) := by
  cases op with
  | act a =>
    obtain ⟨unread, hgiven, hqueue⟩ := h
    cases a with
    | recv =>
      by_cases hclosed : f.chan.closed
      · rw [if_pos hclosed] at hqueue
        refine ⟨unread, ?_, ?_⟩
        · simpa [apply, given_act, FeedOp.taken, hqueue] using hgiven
        · simp [apply, Chan.act, Chan.recv, hclosed, hqueue]
      · rw [if_neg hclosed] at hqueue
        subst hqueue
        have hsplit : f.chan.queue.head?.toList ++ f.chan.queue.tail = f.chan.queue := by
          cases f.chan.queue <;> rfl
        refine ⟨f.chan.queue.tail, ?_, ?_⟩
        · rw [List.append_assoc, FeedOp.taken, hsplit]
          exact hgiven
        · simp [apply, Chan.act, Chan.recv, hclosed]
    | hangUp =>
      exact ⟨unread, by simpa [apply, given_act, FeedOp.taken] using hgiven,
        by simp [apply, Chan.act, Chan.hangUp]⟩
  | broadcast response =>
    simp only [apply, FeedOp.taken, List.append_nil]
    split
    · exact kept_retainSent h response
    · exact h
  | finish response =>
    simp only [apply, FeedOp.taken, List.append_nil]
    split
    · exact kept_retainSent h response
    · exact h
  | _ => simpa [apply, FeedOp.taken] using h

/-- What a client reads in a run. -/
def Clients.takenBy (c : ClientId) : Clients → List ClientOp → List Response
  | _, [] => []
  | clients, op :: ops => (op.project c).elim [] (FeedOp.taken (clients.chans c)) ++
      takenBy c (clients.apply op) ops

theorem Clients.kept_run (c : ClientId) : ∀ (ops : List ClientOp) (clients : Clients)
    (read : List Response), (clients.list ++ addedBy ops).Nodup → (clients.chans c).Kept read →
    ((clients.run ops).chans c).Kept (read ++ clients.takenBy c ops)
  | [], _, _, _, hkept => by
    rw [takenBy, List.append_nil]
    exact hkept
  | op :: ops, clients, read, h, hkept => by
    have hfeed : (clients.apply op).chans c =
        (((op.project c).map (clients.feed c).apply).getD (clients.feed c)).chan :=
      congrArg Feed.chan (feed_apply h.of_append_left c)
    rw [takenBy, ← List.append_assoc]
    refine kept_run c ops (clients.apply op) _ (nodup_apply h) ?_
    rw [hfeed]
    cases op.project c with
    | none =>
      rw [Option.elim_none, List.append_nil]
      exact hkept
    | some o => exact Feed.kept_apply (f := clients.feed c) hkept o

/-- A prefix of a whole feed is a run of the broadcasts, and at most one last
message after it. -/
theorem prefix_wholeFeed_shape : ∀ (ops : List ClientOp) (l : List Response), l <+: wholeFeed ops →
    ∃ (k : Nat) (final : Option Response), l = (broadcastsOf ops).take k ++ final.toList ∧
      ∀ response ∈ final, response.isFinal = true
  | [], l, h => ⟨0, none, by simpa [wholeFeed] using h, by simp⟩
  | op :: ops, l, h => by
    have ih := prefix_wholeFeed_shape ops
    -- an operation a feed does not see
    have hskip : wholeFeed (op :: ops) = wholeFeed ops →
      broadcastsOf (op :: ops) = broadcastsOf ops →
        ∃ (k : Nat) (final : Option Response), l = (broadcastsOf (op :: ops)).take k ++
          final.toList ∧
          ∀ response ∈ final, response.isFinal = true := by
      intro hwhole hbroadcasts
      rw [hbroadcasts]
      exact ih l (hwhole ▸ h)
    -- a last message, or nothing
    have hlast : ∀ response : Response, wholeFeed (op :: ops) = [response] →
      response.isFinal = true →
        ∃ (k : Nat) (final : Option Response), l = (broadcastsOf (op :: ops)).take k ++
          final.toList ∧
          ∀ response ∈ final, response.isFinal = true := by
      intro response hwhole hfinal
      rw [hwhole] at h
      rcases List.prefix_cons_iff.mp h with rfl | ⟨l', rfl, hl'⟩
      · exact ⟨0, none, by simp, by simp⟩
      obtain rfl := List.prefix_nil.mp hl'
      exact ⟨0, some response, by simp, by simpa using hfinal⟩
    cases op with
    | add tx => exact hskip rfl rfl
    | reap => exact hskip rfl rfl
    | act tx a => exact hskip rfl rfl
    | abort reason => exact hlast _ rfl rfl
    | end_ => exact hlast _ rfl rfl
    | broadcast response =>
      rcases List.prefix_cons_iff.mp h with rfl | ⟨l', rfl, hl'⟩
      · exact ⟨0, none, by simp, by simp⟩
      · obtain ⟨k, final, rfl, hfinal⟩ := ih l' hl'
        exact ⟨k + 1, final, by simp [broadcastsOf], hfinal⟩

namespace Clients

/-! ## The published count -/

/-- The count that is published is the length of the list. -/
def Counted (clients : Clients) : Prop := clients.stats.clients = clients.list.length

theorem counted_publishCount (clients : Clients) : clients.publishCount.Counted := rfl

theorem counted_apply {clients : Clients} (h : clients.Counted) (op : ClientOp) :
    (clients.apply op).Counted := by
  cases op with
  | add tx => exact counted_publishCount _
  | broadcast response =>
    show (clients.broadcast response).Counted
    unfold broadcast
    dsimp only
    split
    case isTrue => exact counted_publishCount _
    case isFalse hsame => exact h.trans (not_not.mp hsame).symm
  | reap =>
    show clients.reap.Counted
    unfold reap
    split
    · exact counted_publishCount _
    · exact h
  | abort reason => exact counted_publishCount _
  | end_ => exact counted_publishCount _
  | act tx a => exact h

theorem counted_run : ∀ (ops : List ClientOp) (clients : Clients), clients.Counted →
    (clients.run ops).Counted
  | [], _, h => h
  | op :: ops, clients, h => counted_run ops (clients.apply op) (counted_apply h op)

/-! ## The fan-out law -/

/-- The client's queue stays open and has room whenever something is sent. -/
def KeepsReading (c : ClientId) : Clients → List ClientOp → Prop
  | _, [] => True
  | clients, op :: ops => (clients.chans c).closed = false ∧
      (op.sends = true → (clients.chans c).queue.length < clientQueueLen) ∧
      KeepsReading c (clients.apply op) ops

/-- Why a client leaves the list. -/
inductive Leaves (clients : Clients) (c : ClientId) : ClientOp → Prop where
  | hungUp (op : ClientOp) (h : (clients.chans c).closed = true) : Leaves clients c op
  | full (response : Response) (h : (clients.chans c).queue.length = clientQueueLen) :
      Leaves clients c (.broadcast response)
  | aborted (reason : String) : Leaves clients c (.abort reason)
  | ended : Leaves clients c .end_

/-- The law of the fan-out, over the operations from one start. -/
structure FanOut (start : Clients) (ops : List ClientOp) : Prop where
  /-- From its `add` on, a client is given a gapless run of the broadcasts and at
  most one last message. -/
  given : ∀ c pre post, ops = pre ++ .add c :: post →
    ∃ (k : Nat) (final : Option Response),
      ((start.run ops).chans c).given = (broadcastsOf post).take k ++ final.toList ∧
      ∀ response ∈ final, response.isFinal = true
  /-- What it has read and what its queue still holds is what it was given. -/
  received : ∀ c, ((start.run ops).chans c).Kept (start.takenBy c ops)
  /-- A client that was never put on the list is given nothing. -/
  given_nil : ∀ c, c ∉ addedBy ops → ((start.run ops).chans c).given = []
  /-- A client that keeps reading is given everything, whatever the others do. -/
  whole : ∀ c pre post, ops = pre ++ .add c :: post →
    (start.run (pre ++ [.add c])).KeepsReading c post →
    ((start.run ops).chans c).given = wholeFeed post
  /-- What the others do does not show in a client's queue. -/
  alone : ∀ ops' c, (addedBy ops').Nodup →
    ops.filterMap (ClientOp.project c) = ops'.filterMap (ClientOp.project c) →
    (start.run ops).chans c = (start.run ops').chans c
  /-- A client leaves the list only for one of these reasons. -/
  leaves : ∀ pre op post c, ops = pre ++ op :: post → c ∈ (start.run pre).list →
    c ∉ ((start.run pre).apply op).list → (start.run pre).Leaves c op
  /-- After every operation the published count is the length of the list. -/
  counted : ∀ pre, pre <+: ops → (start.run pre).Counted

theorem keepsReading_feed (c : ClientId) : ∀ (ops : List ClientOp) (clients : Clients),
    (clients.list ++ addedBy ops).Nodup → clients.KeepsReading c ops →
    (clients.feed c).KeepsReading (ops.filterMap (ClientOp.project c))
  | [], _, _, _ => trivial
  | op :: ops, clients, h, ⟨hopen, hroom, hreads⟩ => by
    have ih := keepsReading_feed c ops (clients.apply op) (nodup_apply h) hreads
    rw [feed_apply h.of_append_left] at ih
    cases hproj : op.project c with
    | none => simpa [hproj] using ih
    | some o =>
      rw [List.filterMap_cons_some hproj]
      rw [ClientOp.sends_project hproj] at hroom
      exact ⟨hopen, hroom, by simpa [hproj] using ih⟩

/-- Once a client is on the list, no operation adds it again. -/
theorem project_ne_add {c : ClientId} {ops : List ClientOp} (h : c ∉ addedBy ops) :
    ∀ o ∈ ops.filterMap (ClientOp.project c), o ≠ .add := by
  rintro o ho rfl
  obtain ⟨op, hop, hproj⟩ := List.mem_filterMap.mp ho
  cases op with
  | add tx =>
    by_cases htx : tx = c
    · subst htx
      exact h (List.mem_filterMap.mpr ⟨_, hop, rfl⟩)
    · simp [ClientOp.project, htx] at hproj
  | act tx a => by_cases htx : tx = c <;> simp [ClientOp.project, htx] at hproj
  | _ => simp [ClientOp.project] at hproj

theorem run_append (clients : Clients) (ops ops' : List ClientOp) :
    clients.run (ops ++ ops') = (clients.run ops).run ops' := List.foldl_append

theorem leaves_apply {clients : Clients} {op : ClientOp} {c : ClientId} (h : clients.list.Nodup)
    (hc : c ∈ clients.list) (hleft : c ∉ (clients.apply op).list) : clients.Leaves c op := by
  have hlisted : (clients.feed c).listed = true := by simpa [feed] using hc
  have hout : ((clients.apply op).feed c).listed = false := by simpa [feed] using hleft
  rw [feed_apply h] at hout
  cases hproj : op.project c with
  | none =>
    rw [hproj] at hout
    exact absurd (hlisted.symm.trans hout) (by simp)
  | some o =>
    rw [hproj] at hout
    rcases Feed.leaves hlisted hout with hclosed | ⟨hfull, response, rfl⟩ | ⟨response, rfl⟩
    · exact .hungUp op hclosed
    all_goals
      cases op with
      | add tx | act tx a => by_cases htx : tx = c <;> simp [ClientOp.project, htx] at hproj
      | broadcast r => first | exact .full r hfull | simp [ClientOp.project] at hproj
      | reap => simp [ClientOp.project] at hproj
      | abort reason => exact .aborted reason
      | end_ => exact .ended

theorem nodup_run : ∀ (ops₁ ops₂ : List ClientOp) (clients : Clients),
    (clients.list ++ addedBy (ops₁ ++ ops₂)).Nodup →
    ((clients.run ops₁).list ++ addedBy ops₂).Nodup
  | [], _, _, h => h
  | op :: ops₁, ops₂, clients, h => nodup_run ops₁ ops₂ (clients.apply op) (nodup_apply h)

theorem given_run_listed {c : ClientId} {clients : Clients} {ops : List ClientOp}
    (h : (clients.list ++ addedBy ops).Nodup) (hc : c ∈ clients.list) :
    ∃ l, l <+: wholeFeed ops ∧
      ((clients.run ops).chans c).given = (clients.chans c).given ++ l := by
  have hnot : c ∉ addedBy ops := List.disjoint_of_nodup_append h hc
  have hlisted : (clients.feed c).listed = true := by simpa [feed] using hc
  obtain ⟨l, hl, hgiven⟩ := Feed.given_prefix _ _ hlisted (project_ne_add hnot)
  rw [Feed.whole_project] at hl
  rw [← feed_run c ops clients h] at hgiven
  exact ⟨l, hl, hgiven⟩

/-- A client that was never put on the list is given nothing. -/
theorem given_run_unlisted {c : ClientId} {clients : Clients} {ops : List ClientOp}
    (h : (clients.list ++ addedBy ops).Nodup) (hc : c ∉ clients.list) (hnot : c ∉ addedBy ops) :
    ((clients.run ops).chans c).given = (clients.chans c).given := by
  have hlisted : (clients.feed c).listed = false := by simpa [feed] using hc
  have hgiven := Feed.given_unlisted _ _ hlisted (project_ne_add hnot)
  rw [← feed_run c ops clients h] at hgiven
  exact hgiven

/-- A run cut after the operation that puts a client on the list: the client is
listed there, and has been given nothing. -/
theorem run_add {c : ClientId} {start : Clients} {pre post : List ClientOp}
    (hstart : start.list = []) (h : (addedBy (pre ++ .add c :: post)).Nodup) :
    ((start.run (pre ++ [.add c])).list ++ addedBy post).Nodup ∧
      c ∈ (start.run (pre ++ [.add c])).list ∧
      ((start.run (pre ++ [.add c])).chans c).given = (start.chans c).given := by
  have happend : pre ++ .add c :: post = (pre ++ [.add c]) ++ post := by simp
  have hc : c ∉ addedBy pre := by
    intro hmem
    simp only [addedBy, List.filterMap_append, List.nodup_append] at h
    exact h.2.2 c hmem c (by simp [ClientOp.added]) rfl
  refine ⟨nodup_run _ _ _ (by rw [← happend, hstart]; exact h), ?_, ?_⟩
  · rw [run_append]
    simp [run, apply, add, publishCount]
  · have hpre : (start.list ++ addedBy pre).Nodup := by
      rw [hstart]
      simp only [addedBy, List.filterMap_append, List.nodup_append] at h
      exact h.1
    rw [run_append]
    exact given_run_unlisted hpre (by simp [hstart]) hc

/-- **The fan-out law**, over any interleaving of the operations on the list with
the clients' own acts, each client being put on the list once. -/
theorem fanOut {now interval : Nat} {metricsListen : Option String} {ops : List ClientOp}
    (honce : (addedBy ops).Nodup) :
    (Clients.new (.new now interval metricsListen)).FanOut ops := by
  have hstart : ∀ ops', (addedBy ops').Nodup →
      ((Clients.new (.new now interval metricsListen)).list ++ addedBy ops').Nodup :=
    fun _ h => h
  have hempty : (Clients.new (.new now interval metricsListen)).list = [] := rfl
  refine ⟨?_, ?_, ?_, ?_, ?_, ?_, ?_⟩
  · rintro c pre post rfl
    obtain ⟨hnodup, hc, hgiven⟩ := run_add hempty honce
    obtain ⟨l, hl, hrun⟩ := given_run_listed hnodup hc
    obtain ⟨k, final, rfl, hfinal⟩ := prefix_wholeFeed_shape post l hl
    refine ⟨k, final, ?_, hfinal⟩
    rw [List.append_cons, run_append, hrun, hgiven]
    rfl
  · intro c
    exact kept_run c ops _ [] (hstart ops honce) ⟨[], rfl, rfl⟩
  · intro c hc
    exact given_run_unlisted (hstart ops honce) (by simp [Clients.new]) hc
  · rintro c pre post rfl hreads
    obtain ⟨hnodup, hc, hgiven⟩ := run_add hempty honce
    have hnot : c ∉ addedBy post := List.disjoint_of_nodup_append hnodup hc
    have hwhole := Feed.given_whole _ _ (by simpa [feed] using hc) (project_ne_add hnot)
      (keepsReading_feed c post _ hnodup hreads)
    rw [← feed_run c post _ hnodup, Feed.whole_project] at hwhole
    rw [List.append_cons, run_append]
    exact hwhole.trans (by rw [show (feed _ c).chan.given = _ from hgiven]; rfl)
  · intro ops' c honce' hsame
    have h := feed_run c ops _ (hstart ops honce)
    rw [hsame, ← feed_run c ops' _ (hstart ops' honce')] at h
    exact congrArg Feed.chan h
  · rintro pre op post c rfl hc hleft
    exact leaves_apply (nodup_run pre (op :: post) _ (hstart _ honce)).of_append_left hc hleft
  · intro pre _
    exact counted_run pre _ rfl

/-- Two clients, one of which hangs up between two broadcasts. -/
theorem fanOut_departure :
    (Clients.new (.new 0 nanosPerSec none)).FanOut
      [.add 0, .add 1, .broadcast (.measurement 100 1 42 0 1609304963), .act 1 .hangUp,
        .broadcast (.measurement 100 1 43 0 1609304964), .end_] :=
  fanOut (by decide)

end Clients

end Btwattch2
