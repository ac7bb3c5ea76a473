/-
Btwattch2.ShutdownTheorems — what the streaming clients read once the loop ends.

A client that goes on reading takes its queue out whole (`readBy_append_queue`),
so it reads a clean end exactly if the queue has room for it when the list is
ended (`endsCleanly_iff`).
-/
import Btwattch2.ClientsTheorems

namespace Btwattch2

namespace Clients

/-- What a client takes out of its queue while the clients act. -/
def readBy (c : ClientId) : Clients → List (ClientId × ClientAct) → List Response
  | _, [] => []
  | clients, (tx, a) :: acts =>
    (if tx = c ∧ a = .recv then (clients.chans c).queue.head?.toList else []) ++
      readBy c (clients.act tx a) acts

/-- The clients act. -/
def acted (clients : Clients) (acts : List (ClientId × ClientAct)) : Clients :=
  clients.run (acts.map fun x => .act x.1 x.2)

/-- The client goes on reading until nothing is left in its queue. -/
def ReadsOut (clients : Clients) (c : ClientId) (acts : List (ClientId × ClientAct)) : Prop :=
  (c, .hangUp) ∉ acts ∧ ((clients.acted acts).chans c).queue = []

/-- If the client goes on reading once the list is ended, it reads what was
queued for it, and then that the stream is over. -/
def EndsCleanly (clients : Clients) (c : ClientId) : Prop :=
  ∀ acts, clients.end_.ReadsOut c acts →
    clients.end_.readBy c acts = (clients.chans c).queue ++ [.streamEnd]

theorem queue_act_recv (clients : Clients) (c : ClientId) :
    ((clients.act c .recv).chans c).queue = (clients.chans c).queue.tail := by
  simp [act, Chan.act, Chan.recv]

theorem queue_act_of_ne {clients : Clients} {tx c : ClientId} (h : tx ≠ c) (a : ClientAct) :
    ((clients.act tx a).chans c).queue = (clients.chans c).queue := by
  simp [act, Function.update_of_ne h.symm]

/-- What a client has read and what is left for it are what was queued. -/
theorem readBy_append_queue {c : ClientId} {acts : List (ClientId × ClientAct)} (clients : Clients)
    (h : (c, .hangUp) ∉ acts) :
    clients.readBy c acts ++ ((clients.acted acts).chans c).queue = (clients.chans c).queue := by
  induction acts generalizing clients with
  | nil => rfl
  | cons x acts ih =>
    obtain ⟨tx, a⟩ := x
    obtain ⟨hx, hacts⟩ := not_or.mp (mt List.mem_cons.mpr h)
    have hrest := ih (clients.act tx a) hacts
    have hacted : clients.acted ((tx, a) :: acts) = (clients.act tx a).acted acts := rfl
    rw [readBy, hacted, List.append_assoc, hrest]
    by_cases htx : tx = c
    · subst htx
      cases a with
      | hangUp => exact absurd rfl hx
      | recv =>
        rw [queue_act_recv]
        cases (clients.chans tx).queue <;> simp
    · rw [queue_act_of_ne htx]
      simp [htx]

/-- Reading as often as there are responses leaves none. -/
theorem readsOut_replicate (c : ClientId) : ∀ (n : Nat) (clients : Clients),
    (clients.chans c).queue.length = n → clients.ReadsOut c (List.replicate n (c, .recv))
  | 0, clients, h => ⟨by simp, List.eq_nil_of_length_eq_zero h⟩
  | n + 1, clients, h => by
    have hlen : ((clients.act c .recv).chans c).queue.length = n := by
      rw [queue_act_recv, List.length_tail, h, Nat.add_sub_cancel]
    obtain ⟨-, hqueue⟩ := readsOut_replicate c n (clients.act c .recv) hlen
    exact ⟨by simp, hqueue⟩

/-- Ending the list puts a last message into an open queue that has room, and
leaves a full one as it is. -/
theorem queue_end {clients : Clients} {c : ClientId} (h : clients.list.Nodup)
    (hc : c ∈ clients.list) (hopen : (clients.chans c).closed = false) :
    (clients.end_.chans c).queue = (clients.chans c).queue ++
      if (clients.chans c).queue.length < clientQueueLen then [.streamEnd] else [] := by
  have hfeed : clients.end_.feed c = (clients.feed c).apply (.finish .streamEnd) :=
    feed_finish h .streamEnd c
  have hlisted : (clients.feed c).listed = true := by simpa [feed] using hc
  have hchan : clients.end_.chans c = (retainSent .streamEnd (clients.chans c)).2 := by
    have happly : (clients.feed c).apply (.finish .streamEnd) =
        ⟨false, (retainSent .streamEnd (clients.chans c)).2⟩ := by
      rw [Feed.apply, if_pos hlisted]
      rfl
    exact congrArg Feed.chan (hfeed.trans happly)
  rw [hchan]
  by_cases hroom : (clients.chans c).queue.length < clientQueueLen
  · simp [retainSent, Chan.trySend, hopen, hroom, Nat.not_le_of_lt hroom]
  · simp [retainSent, Chan.trySend, hopen, hroom, Nat.le_of_not_lt hroom]

/-- **A client that goes on reading reads a clean end exactly if there was room
for it**, over any interleaving of the operations on the list with the clients'
own acts, each client being put on the list once. -/
theorem endsCleanly_iff {now interval : Nat} {metricsListen : Option String} {ops : List ClientOp}
    {c : ClientId} (honce : (addedBy ops).Nodup)
    (hc : c ∈ ((Clients.new (.new now interval metricsListen)).run ops).list)
    (hopen : (((Clients.new (.new now interval metricsListen)).run ops).chans c).closed = false) :
    ((Clients.new (.new now interval metricsListen)).run ops).EndsCleanly c ↔
      (((Clients.new (.new now interval metricsListen)).run ops).chans c).queue.length <
        clientQueueLen := by
  have hstart : ((Clients.new (.new now interval metricsListen)).list ++
      addedBy (ops ++ [])).Nodup := by simpa [Clients.new] using honce
  have hnodup := (nodup_run ops [] _ hstart).of_append_left
  generalize (Clients.new (.new now interval metricsListen)).run ops = clients at hc hopen hnodup
  have hqueue := queue_end hnodup hc hopen
  constructor
  · intro hclean
    have hout := readsOut_replicate c _ clients.end_ rfl
    have hread := readBy_append_queue clients.end_ hout.1
    rw [hout.2, List.append_nil, hclean _ hout, hqueue] at hread
    by_contra hfull
    simp [hfull] at hread
  · rintro hroom acts ⟨hreads, hempty⟩
    have hread := readBy_append_queue clients.end_ hreads
    rw [hempty, List.append_nil, hqueue] at hread
    simpa [hroom] using hread

/-- One client is ended with a measurement still to read. -/
theorem endsCleanly_iff_unread :
    ((Clients.new (.new 0 nanosPerSec none)).run
      [.add 0, .add 1, .broadcast (.measurement 100 1 42 0 1609304963), .act 1 .recv]).EndsCleanly 0 ↔
    (((Clients.new (.new 0 nanosPerSec none)).run
      [.add 0, .add 1, .broadcast (.measurement 100 1 42 0 1609304963), .act 1 .recv]).chans 0).queue.length <
        clientQueueLen :=
  endsCleanly_iff (by decide) (by decide) (by decide)

/-- A client that is on the list with its queue full, having missed nothing yet,
reads its measurements and no end. -/
theorem not_endsCleanly_full :
    ∃ clients : Clients,
      clients = (Clients.new (.new 0 nanosPerSec none)).run
        (.add 0 :: List.replicate clientQueueLen (.broadcast (.measurement 100 1 42 0 1609304963))) ∧
      0 ∈ clients.list ∧ (clients.chans 0).closed = false ∧
      (clients.chans 0).given =
        List.replicate clientQueueLen (.measurement 100 1 42 0 1609304963) ∧
      ¬ clients.EndsCleanly 0 := by
  refine ⟨_, rfl, by decide +kernel, by decide +kernel, by decide +kernel, fun hclean => ?_⟩
  have hread := hclean (List.replicate clientQueueLen (0, .recv))
    ⟨by decide +kernel, by decide +kernel⟩
  exact absurd hread (by decide +kernel)

end Clients

end Btwattch2
