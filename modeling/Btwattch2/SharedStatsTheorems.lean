/-
Btwattch2.SharedStatsTheorems — what a call of `reading` returns while the actor
goes on recording.

A reading is that of one moment of the call unless its flag was loaded lowered
and the sample it reads was stored since, with the flag up from then on: then
`fresh` is the verdict from before that sample.
-/
import Mathlib.Data.List.Infix
import Btwattch2.SharedStats

namespace Btwattch2

open Lib.Transition

namespace SharedStats

/-! ## One step -/

/-- What each step can do. -/
inductive Takes (s : SharedStats) : Move → SharedStats → Prop
  | tick (nanos : Nat) : Takes s (.tick nanos) { s with now := s.now + nanos }
  | call (call : StatsCall) (hidle : s.pending = []) :
      Takes s (.call call) { s with pending := call.accesses }
  | access {a : Access} {pending : List Access} (hpending : s.pending = a :: pending) :
      Takes s .access { s with stats := s.stats.access s.now a, pending }
  | enter (hreader : s.reader = .idle) : Takes s .enter { s with reader := .entered }
  | load (hreader : s.reader = .entered) :
      Takes s .load { s with reader := .loaded s.stats.connected }
  | lock {connected : Bool} (hreader : s.reader = .loaded connected) :
      Takes s .lock { s with reader := .locked (s.stats.lockedReading s.now connected) }
  | leave {reading : Reading} (hreader : s.reader = .locked reading) :
      Takes s .leave { s with reader := .returned reading }

theorem takes_of_step {s t : SharedStats} {move : Move} (h : s.step move = some t) :
    Takes s move t := by
  cases move with
  | tick nanos =>
    cases h
    exact .tick nanos
  | call call =>
    obtain ⟨hidle, rfl⟩ : s.pending = [] ∧ { s with pending := call.accesses } = t := by
      simpa [step] using h
    exact .call call hidle
  | access =>
    cases hpending : s.pending with
    | nil => simp [step, hpending] at h
    | cons a pending =>
      obtain rfl : { s with stats := s.stats.access s.now a, pending } = t := by
        simpa [step, hpending] using h
      exact .access hpending
  | enter =>
    cases hreader : s.reader with
    | idle =>
      obtain rfl : { s with reader := .entered } = t := by simpa [step, hreader] using h
      exact .enter hreader
    | _ => simp [step, hreader] at h
  | load =>
    cases hreader : s.reader with
    | entered =>
      obtain rfl : { s with reader := .loaded s.stats.connected } = t := by
        simpa [step, hreader] using h
      exact .load hreader
    | _ => simp [step, hreader] at h
  | lock =>
    cases hreader : s.reader with
    | loaded connected =>
      obtain rfl : { s with reader := .locked (s.stats.lockedReading s.now connected) } = t := by
        simpa [step, hreader] using h
      exact .lock hreader
    | _ => simp [step, hreader] at h
  | leave =>
    cases hreader : s.reader with
    | locked reading =>
      obtain rfl : { s with reader := .returned reading } = t := by simpa [step, hreader] using h
      exact .leave hreader
    | _ => simp [step, hreader] at h

/-! ## What one access leaves as it was -/

/-- Nothing that a reading of `u` depends on has changed, the flag and the time
apart. -/
structure Kept (u s : SharedStats) : Prop where
  latest : u.stats.latest = s.stats.latest
  interval : u.stats.interval = s.stats.interval
  now : u.now ≤ s.now

theorem Kept.refl (s : SharedStats) : Kept s s := ⟨rfl, rfl, le_rfl⟩

theorem Kept.trans {u s t : SharedStats} (h : Kept u s) (h' : Kept s t) : Kept u t :=
  ⟨h.latest.trans h'.latest, h.interval.trans h'.interval, h.now.trans h'.now⟩

theorem Kept.measurement {u s : SharedStats} (h : Kept u s) :
    (u.stats.reading u.now).measurement = (s.stats.reading s.now).measurement := by
  simp [AgentStats.reading, h.latest]

/-- A sample that is fresh was fresh before. -/
theorem Kept.fresh {u s : SharedStats} (h : Kept u s) (hup : u.stats.connected = true)
    (hs : (s.stats.lockedReading s.now true).fresh = true) :
    (u.stats.reading u.now).fresh = true := by
  obtain ⟨sample, hsample, hage⟩ : ∃ sample, s.stats.latest = some sample ∧
      s.now - sample.arrived ≤ s.stats.staleAfter := by
    simpa [AgentStats.lockedReading, Option.any_eq_true] using hs
  have hlatest : u.stats.latest = some sample := h.latest.trans hsample
  have hage' : u.now - sample.arrived ≤ u.stats.staleAfter := by
    have hbound : u.stats.staleAfter = s.stats.staleAfter := by
      simp [AgentStats.staleAfter, h.interval]
    have hnow := h.now
    omega
  simpa [AgentStats.reading, hup, hlatest] using hage'

theorem reading_ext {r r' : Reading} (hmeasurement : r.measurement = r'.measurement)
    (hfresh : r.fresh = r'.fresh) : r = r' := by
  cases r
  cases r'
  simp_all

/-- The flag as `reading` would load it now. -/
theorem reading_eq_lockedReading (s : SharedStats) :
    s.stats.reading s.now = s.stats.lockedReading s.now s.stats.connected := rfl

/-- With the flag down nothing is fresh. -/
theorem lockedReading_down (s : SharedStats) :
    s.stats.lockedReading s.now false = ⟨(s.stats.reading s.now).measurement, false⟩ := rfl

/-! ## The call of the actor -/

/-- What is left of the actor's call ends with the call, and its sample is stored
with the flag up. -/
structure Ordered (s : SharedStats) : Prop where
  suffix : ∃ call : StatsCall, s.pending <:+ call.accesses
  up : ∀ m, s.pending = [.lockLatest m] → s.stats.connected = true

theorem ordered_start (stats : AgentStats) (now : Nat) : Ordered (start stats now) :=
  ⟨⟨.recordReconnect, List.nil_suffix⟩, fun _ h => by cases h⟩

/-- Where in a call the sample is stored: last, and right after the flag. -/
theorem accesses_lockLatest {call : StatsCall} {pending : List Access} {m : Measurement}
    (h : .lockLatest m :: pending <:+ call.accesses) : pending = [] := by
  cases call with
  | recordSample m => simp_all [StatsCall.accesses, List.suffix_cons_iff]
  | setConnected connected => simp [StatsCall.accesses, List.suffix_cons_iff] at h
  | recordReconnect => simp [StatsCall.accesses, List.suffix_cons_iff] at h

theorem accesses_before_lockLatest {call : StatsCall} {a : Access} {m : Measurement}
    (h : [a, .lockLatest m] <:+ call.accesses) : a = .storeConnected true := by
  cases call with
  | recordSample m => simp_all [StatsCall.accesses, List.suffix_cons_iff]
  | setConnected connected => simp [StatsCall.accesses, List.suffix_cons_iff] at h
  | recordReconnect => simp [StatsCall.accesses, List.suffix_cons_iff] at h

theorem Ordered.up_of_cons {s : SharedStats} (h : Ordered s) {m : Measurement}
    {pending : List Access} (hpending : s.pending = .lockLatest m :: pending) :
    s.stats.connected = true := by
  obtain ⟨call, hsuffix⟩ := h.suffix
  have hlast : pending = [] := accesses_lockLatest (hpending ▸ hsuffix)
  exact h.up m (by rw [hpending, hlast])

theorem Ordered.access {s : SharedStats} (h : Ordered s) {a : Access} {pending : List Access}
    (hpending : s.pending = a :: pending) :
    Ordered { s with stats := s.stats.access s.now a, pending } := by
  obtain ⟨call, hsuffix⟩ := h.suffix
  rw [hpending] at hsuffix
  refine ⟨⟨call, (List.suffix_cons a pending).trans hsuffix⟩, ?_⟩
  rintro m rfl
  obtain rfl := accesses_before_lockLatest hsuffix
  rfl

theorem Ordered.step {s t : SharedStats} {move : Move} (h : Ordered s)
    (hstep : s.step move = some t) : Ordered t := by
  cases takes_of_step hstep with
  | tick | enter | load | lock | leave => exact ⟨h.suffix, h.up⟩
  | call call =>
    refine ⟨⟨call, List.suffix_rfl⟩, fun m hm => ?_⟩
    cases call <;> simp [StatsCall.accesses] at hm
  | access hpending => exact h.access hpending

/-! ## Moments of the call -/

section Call

variable (s₀ : SharedStats)

/-- A state of the run between the start of the call and its end. -/
def Moment (moves : List Move) (u : SharedStats) : Prop :=
  ∃ before, before <+: moves ∧ run step s₀ before = some u ∧ u.reader.InCall

/-- What `reading` would return, taken in one step at some moment of the call. -/
def AtSomeMoment (moves : List Move) (reading : Reading) : Prop :=
  ∃ u, Moment s₀ moves u ∧ u.stats.reading u.now = reading

/-- At some moment of the call the flag was as loaded, beside the sample that is
there now. -/
def Seen (moves : List Move) (s : SharedStats) (connected : Bool) : Prop :=
  ∃ u, Moment s₀ moves u ∧ u.stats.connected = connected ∧ Kept u s

/-- Whether, since the reader loaded a lowered flag, a sample was stored and the
flag has been up from then on. -/
def replacedBy (replaced : Bool) (s : SharedStats) : Move → Bool
  | .load => false
  | .access =>
    match s.pending.head? with
    | some (.lockLatest _) => s.reader == .loaded false
    | some (.storeConnected false) => false
    | _ => replaced
  | _ => replaced

/-- Under the lock there is no fresh sample that replaced the one beside which the
lowered flag was loaded. -/
def Untorn (p : Bool × SharedStats) (move : Move) : Prop :=
  move = .lock → p.1 = true → (p.2.stats.reading p.2.now).fresh = false

instance (p : Bool × SharedStats) (move : Move) : Decidable (Untorn p move) :=
  inferInstanceAs (Decidable (_ → _ → _))

variable {s₀}

theorem Moment.mono {moves : List Move} {u : SharedStats} (h : Moment s₀ moves u) (move : Move) :
    Moment s₀ (moves ++ [move]) u := by
  obtain ⟨before, hbefore, hu⟩ := h
  exact ⟨before, hbefore.trans (List.prefix_append moves [move]), hu⟩

theorem AtSomeMoment.mono {moves : List Move} {reading : Reading}
    (h : AtSomeMoment s₀ moves reading) (move : Move) :
    AtSomeMoment s₀ (moves ++ [move]) reading := by
  obtain ⟨u, hu, hreading⟩ := h
  exact ⟨u, hu.mono move, hreading⟩

theorem moment_of_run {moves : List Move} {s : SharedStats} (h : run step s₀ moves = some s)
    (hcall : s.reader.InCall) : Moment s₀ moves s :=
  ⟨moves, List.prefix_rfl, h, hcall⟩

theorem Seen.step {moves : List Move} {s t : SharedStats} {connected : Bool}
    (h : Seen s₀ moves s connected) (move : Move) (hkept : Kept s t) :
    Seen s₀ (moves ++ [move]) t connected := by
  obtain ⟨u, hu, hconnected, hu'⟩ := h
  exact ⟨u, hu.mono move, hconnected, hu'.trans hkept⟩

theorem Moment.seen {moves : List Move} {s : SharedStats} (h : Moment s₀ moves s) :
    Seen s₀ moves s s.stats.connected :=
  ⟨s, h, rfl, Kept.refl s⟩

/-- A flag that stood beside the sample that is read gives the reading of a
moment: of that one, or of the lock. -/
theorem Seen.atSomeMoment {moves : List Move} {s : SharedStats} {connected : Bool}
    (h : Seen s₀ moves s connected) (hs : Moment s₀ moves s) :
    AtSomeMoment s₀ moves (s.stats.lockedReading s.now connected) := by
  obtain ⟨u, hu, hconnected, hkept⟩ := h
  have hmeasurement := hkept.measurement
  cases connected with
  | false =>
    refine ⟨u, hu, ?_⟩
    rw [reading_eq_lockedReading, hconnected, lockedReading_down, hmeasurement, lockedReading_down]
  | true =>
    cases hfresh : (s.stats.lockedReading s.now true).fresh with
    | true =>
      have hu' := hkept.fresh hconnected hfresh
      exact ⟨u, hu, reading_ext hmeasurement (hu'.trans hfresh.symm)⟩
    | false =>
      -- the sample is no longer fresh, whatever the flag is by now
      refine ⟨s, hs, reading_ext rfl ?_⟩
      rw [hfresh]
      cases hflag : s.stats.connected with
      | true => rw [reading_eq_lockedReading, hflag, hfresh]
      | false => rw [reading_eq_lockedReading, hflag, lockedReading_down]

/-! ## One step of the call -/

variable (s₀) in
/-- What holds along an untorn run. -/
structure Consistent (moves : List Move) (p : Bool × SharedStats) : Prop where
  ordered : Ordered p.2
  loaded : ∀ connected, p.2.reader = .loaded connected →
    Seen s₀ moves p.2 connected ∨ connected = false ∧ p.1 = true
  locked : ∀ reading, p.2.reader = .locked reading ∨ p.2.reader = .returned reading →
    AtSomeMoment s₀ moves reading

/-- A step that leaves the reader where it is keeps what is known of it, provided
it keeps what is known of the sample. -/
theorem Consistent.of_reader_eq {moves : List Move} {replaced replaced' : Bool}
    {s t : SharedStats} {move : Move} (h : Consistent s₀ moves (replaced, s))
    (hordered : Ordered t) (hreader : t.reader = s.reader)
    (hseen : ∀ connected, s.reader = .loaded connected →
      Seen s₀ moves s connected ∨ connected = false ∧ replaced = true →
      Seen s₀ (moves ++ [move]) t connected ∨ connected = false ∧ replaced' = true) :
    Consistent s₀ (moves ++ [move]) (replaced', t) := by
  refine ⟨hordered, fun connected hloaded => ?_, fun reading hlocked => ?_⟩
  · have hs : s.reader = .loaded connected := hreader.symm.trans hloaded
    exact hseen connected hs (h.loaded connected hs)
  · have hs : s.reader = .locked reading ∨ s.reader = .returned reading := by
      simpa [hreader] using hlocked
    exact (h.locked reading hs).mono move

/-- An access to the cells while the reader has loaded the flag. -/
theorem seen_access {moves : List Move} {replaced connected : Bool} {s : SharedStats} {a : Access}
    {pending : List Access} (hordered : Ordered s) (hpending : s.pending = a :: pending)
    (hreader : s.reader = .loaded connected)
    (hrun : run step s₀ (moves ++ [.access]) =
      some { s with stats := s.stats.access s.now a, pending })
    (h : Seen s₀ moves s connected ∨ connected = false ∧ replaced = true) :
    Seen s₀ (moves ++ [.access]) { s with stats := s.stats.access s.now a, pending } connected ∨
      connected = false ∧ replacedBy replaced s .access = true := by
  have hcall : s.reader.InCall := by rw [hreader]; trivial
  have hmoment := moment_of_run hrun hcall
  have hhead : s.pending.head? = some a := by rw [hpending]; rfl
  cases a with
  | fetchAddSamples | fetchAddReconnects =>
    refine h.imp (·.step .access ⟨rfl, rfl, le_rfl⟩) fun hreplaced => ?_
    simpa [replacedBy, hhead] using hreplaced
  | storeConnected up =>
    rcases h with hseen | ⟨rfl, hreplaced⟩
    · exact .inl (hseen.step .access ⟨rfl, rfl, le_rfl⟩)
    · cases up with
      | true => exact .inr ⟨rfl, by simpa [replacedBy, hhead] using hreplaced⟩
      | false => exact .inl hmoment.seen
  | lockLatest m =>
    -- the sample is stored with the flag up
    have hup : s.stats.connected = true := hordered.up_of_cons hpending
    cases connected with
    | true =>
      left
      rw [← hup]
      exact hmoment.seen
    | false => exact .inr ⟨rfl, by simp [replacedBy, hhead, hreader]⟩

theorem Consistent.step {moves : List Move} {replaced : Bool} {s t : SharedStats} {move : Move}
    (h : Consistent s₀ moves (replaced, s)) (hrun : run step s₀ moves = some s)
    (hok : Untorn (replaced, s) move) (hstep : s.step move = some t) :
    Consistent s₀ (moves ++ [move]) (replacedBy replaced s move, t) := by
  have hordered : Ordered t := h.ordered.step hstep
  have hrun' : run SharedStats.step s₀ (moves ++ [move]) = some t := by
    rw [run_append, hrun]
    simpa [run] using hstep
  cases takes_of_step hstep with
  | tick nanos =>
    refine h.of_reader_eq hordered rfl fun connected _ hseen => ?_
    exact hseen.imp_left (·.step _ ⟨rfl, rfl, Nat.le_add_right _ _⟩)
  | call call =>
    refine h.of_reader_eq hordered rfl fun connected _ hseen => ?_
    exact hseen.imp_left (·.step _ ⟨rfl, rfl, le_rfl⟩)
  | access hpending =>
    refine h.of_reader_eq hordered rfl fun connected hreader hseen => ?_
    exact seen_access h.ordered hpending hreader hrun' hseen
  | enter hreader => exact ⟨hordered, by simp, by simp⟩
  | load hreader =>
    have hmoment := moment_of_run hrun' trivial
    refine ⟨hordered, fun connected hloaded => .inl ?_, by simp⟩
    obtain rfl := Reader.loaded.inj hloaded
    exact hmoment.seen
  | @lock connected hreader =>
    have hmoment : Moment s₀ moves s := moment_of_run hrun (by rw [hreader]; trivial)
    refine ⟨hordered, by simp, fun reading hlocked => ?_⟩
    obtain rfl : s.stats.lockedReading s.now connected = reading := by simpa using hlocked
    refine AtSomeMoment.mono ?_ _
    rcases h.loaded connected hreader with hseen | ⟨rfl, hreplaced⟩
    · exact hseen.atSomeMoment hmoment
    · -- the sample that came in between is stale
      exact ⟨s, hmoment, reading_ext rfl (hok rfl hreplaced)⟩
  | @leave reading hreader =>
    refine ⟨hordered, by simp, fun reading' hreturned => ?_⟩
    obtain rfl : reading = reading' := by simpa using hreturned
    exact (h.locked reading (.inl hreader)).mono _

end Call

/-- **A reading is that of one moment of its call**, in every untorn run. -/
theorem reading_atSomeMoment {stats : AgentStats} {now : Nat} {moves : List Move}
    {t : SharedStats} {reading : Reading} (hrun : run step (start stats now) moves = some t)
    (huntorn : Meets (observed step replacedBy) Untorn (false, start stats now) moves)
    (hreturned : t.reader = .returned reading) :
    AtSomeMoment (start stats now) moves reading := by
  obtain ⟨replaced, hobserved⟩ := run_observed replacedBy hrun false
  have hconsistent : Consistent (start stats now) moves (replaced, t) := by
    have hstart : Consistent (start stats now) [] (false, start stats now) :=
      ⟨ordered_start stats now, by simp [start], by simp [start]⟩
    refine run_history hstart ?_ moves _ huntorn hobserved
    · rintro moves ⟨replaced, s⟩ move p hrun' hinv hok hstep
      obtain ⟨t, ht, rfl⟩ := Option.map_eq_some_iff.mp hstep
      exact hinv.step (run_of_observed replacedBy hrun') hok ht
  exact hconsistent.locked reading (.inr hreturned)

/-! ## A lowered flag beside the sample that raised it -/

instance (reader : Reader) : Decidable reader.InCall := by
  cases reader <;> unfold Reader.InCall <;> infer_instance

/-- `AtSomeMoment`, by trying every moment. -/
def atSomeMoment (s₀ : SharedStats) (moves : List Move) (reading : Reading) : Bool :=
  moves.inits.any fun before => (run step s₀ before).any fun u =>
    decide (u.reader.InCall ∧ u.stats.reading u.now = reading)

theorem atSomeMoment_iff {s₀ : SharedStats} {moves : List Move} {reading : Reading} :
    atSomeMoment s₀ moves reading = true ↔ AtSomeMoment s₀ moves reading := by
  simp only [atSomeMoment, List.any_eq_true, List.mem_inits, Option.any_eq_true,
    decide_eq_true_eq, AtSomeMoment, Moment]
  constructor
  · rintro ⟨before, hbefore, u, hu, hcall, hreading⟩
    exact ⟨u, ⟨before, hbefore, hu, hcall⟩, hreading⟩
  · rintro ⟨u, ⟨before, hbefore, hu, hcall⟩, hreading⟩
    exact ⟨before, hbefore, u, hu, hcall, hreading⟩

/-- A hundred watts at a hundred volts. -/
def hundredWatts : Measurement := ⟨100, 1, 100, 1, ⟨0, 0⟩⟩

/-- A sample that arrives during the call, before the flag is loaded. -/
def raisedFirst : List Move :=
  [.enter, .call (.recordSample hundredWatts), .access, .access, .load, .access, .lock, .leave]

/-- The same sample, all of it between the load of the flag and the lock. -/
def raisedLate : List Move :=
  [.enter, .load, .call (.recordSample hundredWatts), .access, .access, .access, .lock, .leave]

theorem reading_atSomeMoment_raised :
    AtSomeMoment (start (.new 0 1000000000 none) 7) raisedFirst ⟨some hundredWatts, true⟩ :=
  reading_atSomeMoment (t := ⟨{ AgentStats.new 0 1000000000 none with
      connected := true, samples := 1, latest := some ⟨hundredWatts, 7⟩ }, 7, [],
      .returned ⟨some hundredWatts, true⟩⟩) (by decide +kernel) (by decide +kernel) rfl

/-- The measurement is the new one and the verdict the old one: at no moment of the
call would the reading have been this. -/
theorem reading_torn :
    (run step (start (.new 0 1000000000 none) 7) raisedLate).map SharedStats.reader =
      some (.returned ⟨some hundredWatts, false⟩) ∧
    ¬ AtSomeMoment (start (.new 0 1000000000 none) 7) raisedLate ⟨some hundredWatts, false⟩ := by
  refine ⟨by decide +kernel, ?_⟩
  rw [← atSomeMoment_iff]
  decide +kernel

end SharedStats

end Btwattch2
