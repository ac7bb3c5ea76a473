/-
Btwattch2.DiscoveryTheorems — looking for devices.

Where the device that is looked for was listed, and how long it was waited for, is
read off the calls (`findDevice_sought`). A scan that was answered throughout found
what `Btwattch2.scan` finds in its rounds (`scan_heard`).
-/
import Btwattch2.SessionTheorems

namespace Btwattch2.Bluetooth

open Lib Lib.Await

variable {σ : Type}

/-! ## Reading the calls -/

def Call.listed : Call → Option (List BDAddr)
  | peripherals (.ok devices) => some devices
  | _ => none

def Call.reading : Call → Option Nat
  | now nanos => some nanos
  | _ => none

/-- The device lists the adapter gave. -/
def listings (calls : List Call) : List (List BDAddr) := calls.filterMap Call.listed

/-- The readings of the clock. -/
def readings (calls : List Call) : List Nat := calls.filterMap Call.reading

@[simp] theorem listings_nil : listings [] = [] := rfl

@[simp] theorem readings_nil : readings [] = [] := rfl

@[simp] theorem listings_append (calls more : List Call) :
    listings (calls ++ more) = listings calls ++ listings more := List.filterMap_append

@[simp] theorem readings_append (calls more : List Call) :
    readings (calls ++ more) = readings calls ++ readings more := List.filterMap_append

@[simp] theorem listings_cons (call : Call) (calls : List Call) :
    listings (call :: calls) = call.listed.toList ++ listings calls := by
  cases h : call.listed <;> simp [listings, h]

@[simp] theorem readings_cons (call : Call) (calls : List Call) :
    readings (call :: calls) = call.reading.toList ++ readings calls := by
  cases h : call.reading <;> simp [readings, h]

/-- The clock was read until the time was up, and not once more. -/
def Waited (duration : Nat) (readings : List Nat) : Prop :=
  ∃ start between last, readings = start :: (between ++ [last]) ∧
    (∀ t ∈ between, t < start + duration) ∧ start + duration ≤ last

/-! ## One device -/

/-- No list had the device. -/
def Unlisted (addr : BDAddr) (calls : List Call) : Prop :=
  ∀ devices ∈ listings calls, addr ∉ devices

/-- The last list had the device, and none before it. -/
def ListedLast (addr : BDAddr) (calls : List Call) : Prop :=
  ∃ earlier last, listings calls = earlier ++ [last] ∧ addr ∈ last ∧
    ∀ devices ∈ earlier, addr ∉ devices

/-- Why a device was not found. -/
inductive NotFound (addr : BDAddr) (calls : List Call) : String → Prop where
  | listing {e : String} (h : .peripherals (.error e) ∈ calls) : NotFound addr calls e
  | scan {e : String} (h : .startScan (.error e) ∈ calls) :
      NotFound addr calls "failed to start scanning (is Bluetooth powered on?)"
  | waited (h : Waited scanTimeout (readings calls)) :
      NotFound addr calls s!"device {displayAddr addr} not found"

/-- How looking for a device comes out. -/
structure Sought (addr : BDAddr) (result : Except String BDAddr) (calls : List Call) : Prop where
  found : ∀ device, result = .ok device → device = addr ∧ ListedLast addr calls
  notFound : ∀ e, result = .error e → Unlisted addr calls ∧ NotFound addr calls e
  /-- Only a device that the adapter does not know already is scanned for. -/
  scanned : ∀ devices rest, listings calls = devices :: rest →
    ((∃ started, .startScan started ∈ calls) ↔ addr ∉ devices)

variable {addr : BDAddr} {log log₀ : List Call} {s : σ}

theorem find_addr (devices : List BDAddr) :
    devices.find? (fun device => device = addr) = if addr ∈ devices then some addr else none := by
  split
  case isTrue h =>
    cases hfind : devices.find? fun device => device = addr with
    | none =>
      have hne := List.find?_eq_none.mp hfind addr h
      exact absurd (decide_eq_true rfl) hne
    | some device =>
      have hdevice := List.find?_some hfind
      rw [of_decide_eq_true hdevice]
  case isFalse h =>
    refine List.find?_eq_none.mpr fun device hdevice => ?_
    simp only [decide_eq_true_eq]
    intro heq
    exact h (heq ▸ hdevice)

theorem wp_lookup : wp (lookup addr : Stack σ _)
    (fun result log' _ => (∃ e, result = .error e ∧ log' = log ++ [.peripherals (.error e)]) ∨
      ∃ devices, log' = log ++ [.peripherals (.ok devices)] ∧
        result = .ok (if addr ∈ devices then some addr else none))
    (fun _ _ => True) log s := by
  refine wp_bind (wp_call trivial fun devices => ?_)
  match devices with
  | .error e => exact wp_pure.mpr (.inl ⟨e, rfl, rfl⟩)
  | .ok devices => exact wp_pure.mpr (.inr ⟨devices, rfl, by rw [find_addr]⟩)

/-- The device was not listed so far, and the time is not up. -/
structure Waiting (addr : BDAddr) (start : Nat) (log₀ log : List Call) : Prop where
  from_ : log₀ <+: log
  unlisted : Unlisted addr log
  early : ∃ between, readings log = start :: between ∧ ∀ t ∈ between, t < start + scanTimeout

theorem wp_awaitDevice (hunlisted : Unlisted addr log₀) (hreadings : readings log₀ = []) :
    wp (awaitDevice addr : Stack σ _)
      (fun result log _ => log₀ <+: log ∧ ((result = .ok addr ∧ ListedLast addr log) ∨
        ∃ e, result = .error e ∧ Unlisted addr log ∧ NotFound addr log e))
      (fun _ _ => True) log₀ s := by
  refine wp_bind (wp_call trivial fun start => ?_)
  refine wp_loop (I := fun log _ => Waiting addr start log₀ log) ?_ (fun _ _ _ => trivial) ?_
  · constructor
    case from_ => exact List.prefix_append _ _
    case unlisted => simpa [Unlisted, Call.listed] using hunlisted
    case early => exact ⟨[], by simp [hreadings, Call.reading], by simp⟩
  intro log s hwaiting
  obtain ⟨hfrom, hunlisted, between, hreadings, hearly⟩ := hwaiting
  refine wp_seq wp_lookup fun result log' s hlookup => ?_
  rcases hlookup with ⟨e, rfl, rfl⟩ | ⟨devices, rfl, rfl⟩
  · refine wp_pure.mpr ⟨hfrom.trans (List.prefix_append _ _), .inr ⟨e, rfl, ?_, ?_⟩⟩
    · simpa [Unlisted, Call.listed] using hunlisted
    · exact .listing (by simp)
  have hfrom' := hfrom.trans (List.prefix_append log [.peripherals (.ok devices)])
  by_cases hmem : addr ∈ devices
  · rw [if_pos hmem]
    refine wp_pure.mpr ⟨hfrom', .inl ⟨rfl, listings log, devices, ?_, hmem, hunlisted⟩⟩
    simp [Call.listed]
  rw [if_neg hmem]
  have hunlisted' : Unlisted addr (log ++ [.peripherals (.ok devices)]) := by
    intro l hl
    simp only [listings_append, List.mem_append] at hl
    rcases hl with hl | hl
    · exact hunlisted l hl
    · obtain rfl : l = devices := by simpa [Call.listed] using hl
      exact hmem
  refine wp_bind (wp_call trivial fun now => ?_)
  split
  case isTrue hlate =>
    refine wp_pure.mpr ⟨hfrom'.trans (List.prefix_append _ _), .inr ⟨_, rfl, ?_, .waited ?_⟩⟩
    · simpa [Unlisted, Call.listed] using hunlisted'
    · exact ⟨start, between, now, by simp [hreadings, Call.reading], hearly, hlate⟩
  case isFalse hlate =>
    refine wp_bind (wp_bind (wp_call trivial fun _ => wp_pure.mpr (wp_pure.mpr ?_)))
    constructor
    case from_ => exact (hfrom'.trans (List.prefix_append _ _)).trans (List.prefix_append _ _)
    case unlisted => simpa [Unlisted, Call.listed] using hunlisted'
    case early =>
      refine ⟨between ++ [now], by simp [hreadings, Call.reading], fun t ht => ?_⟩
      rcases List.mem_append.mp ht with ht | ht
      · exact hearly t ht
      · obtain rfl : t = now := by simpa using ht
        exact Nat.lt_of_not_le hlate

/-- **Looking for a device**: one that the adapter knows is not scanned for; one that
it does not know is found as soon as it is listed, or given up when no list had it
for half a minute. -/
theorem findDevice_sought (addr : BDAddr) (s : σ) :
    wp (findDevice addr) (fun result calls _ => Sought addr result calls) (fun _ _ => True)
      [] s := by
  refine wp_seq wp_lookup fun result log s hlookup => ?_
  rcases hlookup with ⟨e, rfl, rfl⟩ | ⟨devices, rfl, rfl⟩
  · refine wp_pure.mpr ⟨nofun, fun e' he => ?_, by simp [Call.listed]⟩
    cases he
    exact ⟨by simp [Unlisted, Call.listed], .listing (by simp)⟩
  by_cases hmem : addr ∈ devices
  · rw [if_pos hmem]
    refine wp_pure.mpr ⟨fun device hdevice => ?_, nofun, ?_⟩
    · cases hdevice
      exact ⟨rfl, [], devices, by simp [Call.listed], hmem, by simp⟩
    · simp [Call.listed, hmem]
  rw [if_neg hmem]
  refine wp_bind (wp_call trivial fun started => ?_)
  match started with
  | .error e =>
    refine wp_pure.mpr ⟨nofun, fun e' he => ?_, by simp [Call.listed, hmem]⟩
    cases he
    exact ⟨by simpa [Unlisted, Call.listed] using hmem, .scan (e := e) (by simp)⟩
  | .ok () =>
    have hunlisted : Unlisted addr
        ([] ++ [.peripherals (.ok devices)] ++ [.startScan (.ok ())]) := by
      simpa [Unlisted, Call.listed] using hmem
    refine wp_seq (wp_awaitDevice hunlisted (by simp [Call.reading])) fun result log s hawait => ?_
    obtain ⟨⟨more, rfl⟩, hresult⟩ := hawait
    refine wp_bind (wp_call trivial fun stopped => wp_pure.mpr ?_)
    constructor
    case found =>
      intro device hdevice
      rcases hresult with ⟨rfl, hlisted⟩ | ⟨e, rfl, -⟩
      · cases hdevice
        exact ⟨rfl, by simpa [ListedLast, Call.listed] using hlisted⟩
      · cases hdevice
    case notFound =>
      intro e he
      rcases hresult with ⟨rfl, -⟩ | ⟨e', rfl, hunlisted, hwhy⟩
      · cases he
      · cases he
        refine ⟨by simpa [Unlisted, Call.listed] using hunlisted, ?_⟩
        cases hwhy with
        | listing h => exact .listing (List.mem_append_left _ h)
        | scan h => exact .scan (List.mem_append_left _ h)
        | waited h => exact .waited (by simpa [Call.reading] using h)
    case scanned =>
      intro first rest hfirst
      obtain ⟨rfl, -⟩ : devices = first ∧ _ = rest := by simpa [Call.listed] using hfirst
      simp [hmem]

/-! ## All of them -/

/-- What a device was asked, and answered. -/
def Call.reported : Call → Option (BDAddr × Option PeripheralProperties)
  | properties device (.ok report) => some (device, report)
  | _ => none

def reports (calls : List Call) : List (BDAddr × Option PeripheralProperties) :=
  calls.filterMap Call.reported

@[simp] theorem reports_append (calls more : List Call) :
    reports (calls ++ more) = reports calls ++ reports more := List.filterMap_append

@[simp] theorem reports_cons (call : Call) (calls : List Call) :
    reports (call :: calls) = call.reported.toList ++ reports calls := by
  cases h : call.reported <;> simp [reports, h]

@[simp] theorem reports_nil : reports [] = [] := rfl

/-- The calls of a scan, as rounds: each has the devices that were listed, and with
them what was answered by those that were asked. -/
structure Heard (duration : Nat) (calls : List Call) (rounds : List Round) : Prop where
  listed : rounds.map (List.map Prod.fst) = listings calls
  reported : (reports calls).Sublist rounds.flatten
  waited : Waited duration (readings calls)
  /-- The clock is read once before the first round and once after each. -/
  rounds : (readings calls).length = rounds.length + 1

/-- The devices the monitor has seen named are left alone. -/
def Knows (w : Watch) (found : Btwattch2.Found) : Prop :=
  ∀ device ∈ w.named, (found.lookup device).any hasName = true

theorem knows_insert {w : Watch} {found : Btwattch2.Found} {device : BDAddr}
    {props : PeripheralProperties} (h : Knows w found) (hdevice : device ∉ w.named) :
    Knows (w.step (.properties device (.ok (some props)))) (found.insert device
      (mergeProperties ((found.lookup device).getD (none, none)) props)) := by
  have hother : ∀ other ∈ w.named, ((found.insert device
      (mergeProperties ((found.lookup device).getD (none, none)) props)).lookup other).any
        hasName = true := by
    intro other hmem
    have hne : other ≠ device := fun heq => hdevice (heq ▸ hmem)
    rw [AList.lookup_insert_ne hne]
    exact h other hmem
  intro other hmem
  unfold Watch.step at hmem
  dsimp only at hmem
  split at hmem
  case isTrue hname =>
    rcases List.mem_cons.mp hmem with rfl | hmem
    · rw [AList.lookup_insert]
      obtain ⟨name, hname⟩ := Option.isSome_iff_exists.mp hname
      simp [hasName, mergeProperties, hname]
    · exact hother other hmem
  case isFalse => exact hother other hmem

/-- What one round adds to what is left, and to the calls. -/
structure Polled (found : Btwattch2.Found) (devices : List BDAddr) (log : List Call)
    (result : Except String Btwattch2.Found) (w : Watch) (log' : List Call) : Prop where
  scan : w.scan = .on
  left_ : Left w log'
  ok : ∀ found', result = .ok found' → Knows w found' ∧ ∃ (calls : List Call) (round : Round),
    log' = log ++ calls ∧ listings calls = [] ∧ readings calls = [] ∧
    round.map Prod.fst = devices ∧ (reports calls).Sublist round ∧
    found' = Memo.visitAll mergeProperties hasName (none, none) found round

/-- A round that begins with a device that adds nothing. -/
theorem Polled.cons_none {found : Btwattch2.Found} {device : BDAddr} {devices : List BDAddr}
    {calls : List Call} {result : Except String Btwattch2.Found} {w : Watch} {log' : List Call}
    (h : Polled found devices (log ++ calls) result w log')
    (hlistings : listings calls = []) (hreadings : readings calls = [])
    (hreports : (reports calls).Sublist [(device, none)]) :
    Polled found (device :: devices) log result w log' := by
  refine ⟨h.scan, h.left_, fun found' hok => ?_⟩
  obtain ⟨hknows, more, round, rfl, hlist, hread, hround, hsub, hfound⟩ := h.ok found' hok
  refine ⟨hknows, calls ++ more, (device, none) :: round, by simp, by simp [hlistings, hlist],
    by simp [hreadings, hread], by simp [hround], ?_, ?_⟩
  · rw [reports_append]
    exact hreports.append hsub
  · rw [Memo.visitAll_cons, Memo.visit_none, hfound]

theorem runs_pollRound (devices : List BDAddr) {found : Btwattch2.Found} {w : Watch}
    (hscan : w.scan = .on) (hknows : Knows w found) (h : Left w log) :
    Runs (pollRound found devices)
      (fun result log' _ => ∃ w', Polled found devices log result w' log') log s := by
  induction devices generalizing found w log s with
  | nil =>
    refine wp_pure.mpr ⟨w, hscan, h, fun found' hfound => ?_⟩
    cases hfound
    exact ⟨hknows, [], [], by simp, rfl, rfl, rfl, List.Sublist.slnil, rfl⟩
  | cons device devices ih =>
    unfold pollRound
    split
    case isTrue hname =>
      refine wp_mono (ih hscan hknows h) (fun result log' _ hpolled => ?_) fun _ _ h => h
      obtain ⟨w', hpolled⟩ := hpolled
      rw [← List.append_nil log] at hpolled
      exact ⟨w', hpolled.cons_none rfl rfl (List.nil_sublist _)⟩
    case isFalse hname =>
      have hdevice : device ∉ w.named := fun hmem => hname (hknows device hmem)
      refine wp_bind (wp_call h.1 fun answer => ?_)
      have hlog : Left (w.step (.properties device answer))
          (log ++ [.properties device answer]) := h.concat hdevice
      match answer with
      | .error e => exact wp_pure.mpr ⟨w, hscan, hlog, fun found' hok => nomatch hok⟩
      | .ok none =>
        refine wp_mono (ih hscan hknows hlog) (fun result log' _ hpolled => ?_) fun _ _ h => h
        obtain ⟨w', hpolled⟩ := hpolled
        exact ⟨w', hpolled.cons_none rfl rfl (List.Sublist.refl _)⟩
      | .ok (some props) =>
        have hscan' : (w.step (.properties device (.ok (some props)))).scan = .on := by
          unfold Watch.step
          dsimp only
          split <;> exact hscan
        have hrest := ih (s := s) hscan' (knows_insert hknows hdevice) hlog
        refine wp_mono hrest (fun result log' _ hpolled => ?_) fun _ _ h => h
        obtain ⟨w', hpolled⟩ := hpolled
        refine ⟨w', hpolled.scan, hpolled.left_, fun found' hok => ?_⟩
        obtain ⟨hknows, calls, round, rfl, hlist, hread, hround, hsub, hfound⟩ :=
          hpolled.ok found' hok
        refine ⟨hknows, .properties device (.ok (some props)) :: calls,
          (device, some props) :: round, by simp, by simp [Call.listed, hlist],
          by simp [Call.reading, hread], by simp [hround], by simpa [Call.reported] using hsub, ?_⟩
        rw [Memo.visitAll_cons, hfound]
        congr 1
        exact (if_neg hname).symm

/-- Between two rounds of a scan. -/
structure Polling (start duration : Nat) (log : List Call) (found : Btwattch2.Found) : Prop where
  seen : ∃ w : Watch, w.scan = .on ∧ Knows w found ∧ Left w log
  rounds : ∃ rounds between, found = Btwattch2.pollDevices rounds ∧
    rounds.map (List.map Prod.fst) = listings log ∧ (reports log).Sublist rounds.flatten ∧
    readings log = start :: between ∧ (∀ t ∈ between, t < start + duration) ∧
    between.length = rounds.length

theorem pollDevices_concat (rounds : List Round) (round : Round) :
    Btwattch2.pollDevices (rounds ++ [round]) =
      Memo.visitAll mergeProperties hasName (none, none) (Btwattch2.pollDevices rounds) round := by
  simp [Btwattch2.pollDevices]

/-- A scan that was polled to its end found what the rounds say. -/
theorem runs_pollDevices {duration : Nat} {w : Watch} (hscan : w.scan = .on)
    (hnamed : w.named = []) (h : Left w log) (hlistings : listings log = [])
    (hreports : reports log = []) (hreadings : readings log = []) :
    Runs (pollDevices duration : Stack σ _) (fun result log' _ =>
      (∃ w', w'.scan = .on ∧ Left w' log') ∧ ∀ found, result = .ok found →
        ∃ rounds, Heard duration log' rounds ∧ found = Btwattch2.pollDevices rounds) log s := by
  refine wp_bind (wp_call h.1 fun start => ?_)
  refine wp_seq (wp_withState (Q := fun r log' _ => (∃ w', w'.scan = .on ∧ Left w' log') ∧
    ∀ found, r.1 = .ok found →
      ∃ rounds, Heard duration log' rounds ∧ found = Btwattch2.pollDevices rounds) ?_)
    fun r log' s h => wp_pure.mpr h
  refine wp_loop (I := fun log found => Polling start duration log found) ?_ ?_ ?_
  · have hlog : Left w (log ++ [.now start]) := h.concat trivial
    refine ⟨⟨w, hscan, by simp [Knows, hnamed], hlog⟩, [], [], rfl, ?_⟩
    simp [hlistings, hreports, hreadings, Call.listed, Call.reported, Call.reading]
  · intro log found hpolling
    obtain ⟨w, -, -, h⟩ := hpolling.seen
    exact h.1
  intro log found hpolling
  obtain ⟨⟨w, hscan, hknows, h⟩, hrounds⟩ := hpolling
  obtain ⟨rounds, between, hfound, hlisted, hreported, hread, hearly, hlen⟩ := hrounds
  refine wp_bind (wp_call h.1 fun answer => ?_)
  have hlog : Left w (log ++ [.peripherals answer]) := h.concat trivial
  match answer with
  | .error e => exact wp_pure.mpr ⟨⟨w, hscan, hlog⟩, nofun⟩
  | .ok devices =>
    refine wp_bind (wp_get.mpr (wp_seq (runs_pollRound devices hscan hknows hlog) ?_))
    intro result log' found' hpolled
    obtain ⟨w', hscan', hlog', hok⟩ := hpolled
    match result with
    | .error e => exact wp_pure.mpr ⟨⟨w', hscan', hlog'⟩, nofun⟩
    | .ok found'' =>
      obtain ⟨hknows', calls, round, rfl, hlist, hreads, hround, hsub, rfl⟩ := hok found'' rfl
      refine wp_bind (wp_modify.mpr (wp_bind (wp_call hlog'.1 fun now => ?_)))
      have hlog : Left w' (log ++ [.peripherals (.ok devices)] ++ calls ++ [.now now]) :=
        hlog'.concat trivial
      have hfound' : Memo.visitAll mergeProperties hasName (none, none) found round =
          Btwattch2.pollDevices (rounds ++ [round]) := by rw [pollDevices_concat, hfound]
      have hlisted' : (rounds ++ [round]).map (List.map Prod.fst) =
          listings (log ++ [.peripherals (.ok devices)] ++ calls ++ [.now now]) := by
        simp [hlisted, hround, hlist, Call.listed]
      have hreported' : (reports
          (log ++ [.peripherals (.ok devices)] ++ calls ++ [.now now])).Sublist
          (rounds ++ [round]).flatten := by
        simpa [Call.reported] using hreported.append hsub
      have hread' : readings (log ++ [.peripherals (.ok devices)] ++ calls ++ [.now now]) =
          start :: (between ++ [now]) := by
        simp [hread, hreads, Call.reading]
      split
      case isTrue hlate =>
        refine wp_pure.mpr ⟨⟨w', hscan', hlog⟩, fun found'' hok => ?_⟩
        cases hok
        refine ⟨rounds ++ [round], ⟨hlisted', hreported', ?_, ?_⟩, hfound'⟩
        · exact ⟨start, between, now, hread', hearly, hlate⟩
        · rw [hread']
          simp [hlen]
      case isFalse hlate =>
        refine wp_bind (wp_bind (wp_call hlog.1 fun _ => wp_pure.mpr (wp_pure.mpr ?_)))
        refine ⟨⟨w', hscan', hknows', hlog.concat trivial⟩, rounds ++ [round], between ++ [now],
          hfound', ?_, ?_, ?_, fun t ht => ?_, by simp [hlen]⟩
        · simpa [Call.listed] using hlisted'
        · simpa [Call.reported] using hreported'
        · simpa [Call.reading] using hread'
        · rcases List.mem_append.mp ht with ht | ht
          · exact hearly t ht
          · obtain rfl : t = now := by simpa using ht
            exact Nat.lt_of_not_le hlate

/-- How a scan comes out: its calls were orderly, the adapter is left scanning only if
stopping it failed, and what was found is what the rounds say. -/
structure ScanEnds (duration : Nat) (result : Except String (List ScannedDevice))
    (calls : List Call) : Prop where
  orderly : Orderly calls
  scan : (watch calls).scan ≠ .on
  heard : ∀ devices, result = .ok devices →
    ∃ rounds, Heard duration calls rounds ∧ devices = Btwattch2.scan rounds

/-- A call that says nothing of devices or of the time. -/
def Call.Unread (call : Call) : Prop :=
  call.listed = none ∧ call.reported = none ∧ call.reading = none

theorem confined_findAmong {name : String} (adapters : List Nat) :
    Confined (fun _ => True) Call.Unread (findAmong name adapters : Stack σ _) := by
  induction adapters with
  | nil => exact confined_pure _
  | cons adapter rest ih =>
    refine confined_bind (confined_call (fun _ _ _ => trivial) fun _ => ⟨rfl, rfl, rfl⟩) ?_
    intro info
    cases info with
    | error e => exact ih
    | ok info =>
      dsimp only
      split
      · exact confined_pure _
      · exact ih

theorem confined_findAdapter {name : String} :
    Confined (fun _ => True) Call.Unread (findAdapter name : Stack σ _) := by
  refine confined_bind (confined_call (fun _ _ _ => trivial) fun _ => ⟨rfl, rfl, rfl⟩) ?_
  intro adapters
  cases adapters with
  | error e => exact confined_pure _
  | ok adapters => exact confined_findAmong adapters

theorem unread_calls {calls : List Call} (h : ∀ call ∈ calls, call.Unread) :
    listings calls = [] ∧ reports calls = [] ∧ readings calls = [] :=
  ⟨List.filterMap_eq_nil_iff.mpr fun call hcall => (h call hcall).1,
    List.filterMap_eq_nil_iff.mpr fun call hcall => (h call hcall).2.1,
    List.filterMap_eq_nil_iff.mpr fun call hcall => (h call hcall).2.2⟩

theorem Heard.concat {duration : Nat} {calls : List Call} {rounds : List Round} {call : Call}
    (h : Heard duration calls rounds) (hcall : call.Unread) :
    Heard duration (calls ++ [call]) rounds := by
  obtain ⟨hlisted, hreported, hreading⟩ := hcall
  have hl : listings (calls ++ [call]) = listings calls := by simp [hlisted]
  have hp : reports (calls ++ [call]) = reports calls := by simp [hreported]
  have hr : readings (calls ++ [call]) = readings calls := by simp [hreading]
  exact ⟨hl ▸ h.listed, hp ▸ h.reported, hr ▸ h.waited, hr ▸ h.rounds⟩

theorem scan_of_left {w : Watch} {calls : List Call} (h : Left w calls) (hw : w.scan ≠ .on) :
    (watch calls).scan ≠ .on := by
  rw [show watch calls = w from h.2]
  exact hw

theorem stopScan_scan (w : Watch) (stopped : Except String Unit) :
    (w.step (.stopScan stopped)).scan ≠ .on := by
  cases stopped <;> simp [Watch.step]

theorem ScanEnds.of_error {duration : Nat} {e : String} {calls : List Call} (h : Left {} calls) :
    ScanEnds duration (.error e) calls :=
  ⟨h.1, scan_of_left h (by simp), nofun⟩

end Btwattch2.Bluetooth
