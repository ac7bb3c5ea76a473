/-
Btwattch2.ClockTheorems — the clock frame the program writes and the timestamp it
reads agree, but for a time that the clock shows twice.

Both carry a civil time in six bytes. `clockBytes` of a civil time whose year
fits are read back as that time (`ofClockBytes_clockBytes`), and bytes that name
a civil time are its `clockBytes`; what is left is how the local zone resolves a
civil time (`Chrono.Lawful`). Of two instants that show one, the decoder takes the
one the clock library lists first, which need not be the earlier
(`Chrono.LaterFirst`).
-/
import Btwattch2.ChronoTheorems
import Btwattch2.Measurement
import Btwattch2.Payload

namespace Btwattch2

/-! ## The local zone -/

/-- Some instant shows this time on the local clock. -/
def Chrono.Shows (chrono : Chrono) (naive : NaiveDateTime) (secs : Int) : Prop :=
  secs + chrono.offsetAt secs = naive.secs

/-- How local times resolve: no instant that shows a time is missed, and the first
of two shows it. Nothing is said of which of two comes first, nor of a time that no
instant shows, which may still resolve, as the first second of a gap does. -/
structure Chrono.Lawful (chrono : Chrono) : Prop where
  none : ∀ {naive}, chrono.fromLocalDatetime naive = .none → ∀ secs, ¬ chrono.Shows naive secs
  single : ∀ {naive t}, chrono.fromLocalDatetime naive = .single t →
    t.nanos = 0 ∧ ∀ secs, chrono.Shows naive secs → secs = t.secs
  ambiguous : ∀ {naive t t'}, chrono.fromLocalDatetime naive = .ambiguous t t' →
    t.nanos = 0 ∧ chrono.Shows naive t.secs ∧
      ∀ secs, chrono.Shows naive secs → secs = t.secs ∨ secs = t'.secs

/-- Of two instants that show this time, the later is listed first. -/
def Chrono.LaterFirst (chrono : Chrono) (naive : NaiveDateTime) : Prop :=
  ∃ t t', chrono.fromLocalDatetime naive = .ambiguous t t' ∧ t'.secs < t.secs ∧
    chrono.Shows naive t'.secs

namespace Chrono

variable {chrono : Chrono}

/-- At most two instants show a time. -/
theorem Lawful.two (h : chrono.Lawful) {naive : NaiveDateTime} {a b c : Int}
    (ha : chrono.Shows naive a) (hb : chrono.Shows naive b) (hc : chrono.Shows naive c) :
    a = b ∨ a = c ∨ b = c := by
  cases hres : chrono.fromLocalDatetime naive with
  | none => exact absurd ha (h.none hres a)
  | single t =>
    obtain ⟨-, honly⟩ := h.single hres
    exact .inl ((honly a ha).trans (honly b hb).symm)
  | ambiguous t t' =>
    obtain ⟨-, -, honly⟩ := h.ambiguous hres
    have hta := honly a ha
    have htb := honly b hb
    have htc := honly c hc
    omega

/-- A time the local clock shows resolves to an instant that shows it: to the first
one, unless the later is listed before it. -/
theorem Lawful.localDatetime_eq (h : chrono.Lawful) {naive : NaiveDateTime} {secs : Int}
    (hshows : chrono.Shows naive secs) :
    ∃ found, chrono.localDatetime naive = some ⟨found, 0⟩ ∧ chrono.Shows naive found ∧
      (¬ chrono.LaterFirst naive ↔ ∀ other, chrono.Shows naive other → found ≤ other) := by
  unfold localDatetime LaterFirst
  cases hres : chrono.fromLocalDatetime naive with
  | none => exact absurd hshows (h.none hres secs)
  | single t =>
    obtain ⟨hnanos, honly⟩ := h.single hres
    obtain ⟨found, nanos⟩ := t
    cases hnanos
    obtain rfl : secs = found := honly secs hshows
    refine ⟨secs, rfl, hshows, ?_⟩
    simpa using fun other hother => (honly other hother).ge
  | ambiguous t t' =>
    obtain ⟨hnanos, hfirst, honly⟩ := h.ambiguous hres
    obtain ⟨found, nanos⟩ := t
    cases hnanos
    refine ⟨found, rfl, hfirst, fun hnot other hother => ?_, fun hleast hlater => ?_⟩
    · rcases honly other hother with rfl | rfl
      · exact Int.le_refl _
      · exact Int.not_lt.mp fun hlt => hnot ⟨_, _, rfl, hlt, hother⟩
    · obtain ⟨t, t', heq, hlt, hshows'⟩ := hlater
      cases heq
      exact absurd (hleast _ hshows') (Int.not_le.mpr hlt)

/-- A zone that changes its offset once. As the library has it, two instants that
show a time are listed by their offsets, the smaller first; a change belongs to the
times on both sides of it. -/
def changing (change before after : Int) (parseFromRfc3339 : String → Except String DateTime) :
    Chrono where
  offsetAt secs := if secs < change then before else after
  fromLocalDatetime naive :=
    let old : DateTime := ⟨naive.secs - before, 0⟩
    let new : DateTime := ⟨naive.secs - after, 0⟩
    if after < before then
      if naive.secs < change + after then .single old
      else if naive.secs ≤ change + before then .ambiguous new old
      else .single new
    else if naive.secs ≤ change + before then .single old
    else if naive.secs < change + after then .none
    else .single new
  parseFromRfc3339

theorem lawful_changing (change before after : Int)
    (parseFromRfc3339 : String → Except String DateTime) :
    (changing change before after parseFromRfc3339).Lawful := by
  have hshows : ∀ naive secs, (changing change before after parseFromRfc3339).Shows naive secs ↔
      secs + (if secs < change then before else after) = naive.secs := fun _ _ => Iff.rfl
  constructor
  · intro naive hres secs
    rw [hshows]
    simp only [changing] at hres
    split at hres <;> split at hres <;> try cases hres
    all_goals split at hres <;> cases hres
    split <;> omega
  · intro naive t hres
    simp only [changing] at hres
    refine ⟨?_, fun secs => ?_⟩
    · split at hres <;> split at hres <;> try split at hres
      all_goals cases hres
      all_goals rfl
    · rw [hshows]
      split at hres <;> split at hres <;> try split at hres
      all_goals cases hres
      all_goals split <;> dsimp only <;> omega
  · intro naive t t' hres
    simp only [changing] at hres
    split at hres <;> split at hres <;> try cases hres
    all_goals split at hres <;> cases hres
    refine ⟨rfl, ?_, fun secs => ?_⟩
    · rw [hshows, if_neg] <;> dsimp only <;> omega
    · rw [hshows]
      split <;> dsimp only <;> omega

end Chrono

/-! ## Six bytes of a civil time -/

/-- Second, minute, hour, day, month from zero and year from 1900. -/
def NaiveDateTime.clockBytes (n : NaiveDateTime) : List UInt8 :=
  [UInt8.ofNat n.second, UInt8.ofNat n.minute, UInt8.ofNat n.hour, UInt8.ofNat n.day,
    UInt8.ofNat (n.month - 1), UInt8.ofNat (n.year - 1900).toNat]

/-- The civil time six bytes of a frame name, if there is one. -/
def NaiveDateTime.ofClockBytes (bytes : List UInt8) : Option NaiveDateTime :=
  fromYmdHmsOpt (1900 + byteAt bytes 5) (byteAt bytes 4 + 1) (byteAt bytes 3) (byteAt bytes 2)
    (byteAt bytes 1) (byteAt bytes 0)

/-- The bytes of a frame that carry its timestamp. -/
def timestampBytes (frame : List UInt8) : List UInt8 := (frame.drop 23).take 6

/-- The bytes of a clock frame that carry the time. -/
def rtcBytes (frame : List UInt8) : List UInt8 := (frame.drop 4).take 6

/-- The years the wire format can carry. -/
def NaiveDateTime.Fits (n : NaiveDateTime) : Prop := 1900 ≤ n.year ∧ n.year ≤ 2155

instance (n : NaiveDateTime) : Decidable n.Fits := inferInstanceAs (Decidable (_ ∧ _))

namespace NaiveDateTime

theorem ofClockBytes_clockBytes {n : NaiveDateTime} (h : n.Fits) :
    ofClockBytes n.clockBytes = some n := by
  obtain ⟨hfrom, hto⟩ := h
  obtain ⟨hmonth, hmonth'⟩ := n.month_bounds
  obtain ⟨hday, hday'⟩ := n.day_bounds
  have hlen : daysInMonth n.year n.month ≤ 31 := by
    unfold daysInMonth
    split
    · split <;> decide
    all_goals decide
  have hlt := n.secondOfDay_lt
  have hhour : n.hour < 256 := by
    simp only [hour]
    omega
  have hminute : n.minute < 256 := by
    simp only [minute]
    omega
  have hsecond : n.second < 256 := by
    simp only [second]
    omega
  -- every field fits its byte
  have hfields : byteAt n.clockBytes 0 = n.second ∧ byteAt n.clockBytes 1 = n.minute ∧
      byteAt n.clockBytes 2 = n.hour ∧ byteAt n.clockBytes 3 = n.day ∧
      byteAt n.clockBytes 4 + 1 = n.month ∧ (1900 + byteAt n.clockBytes 5 : Int) = n.year := by
    simp only [byteAt, clockBytes, List.getD_cons_zero, List.getD_cons_succ, UInt8.toNat_ofNat']
    omega
  obtain ⟨h0, h1, h2, h3, h4, h5⟩ := hfields
  rw [ofClockBytes, h0, h1, h2, h3, h4, h5, fromYmdHmsOpt_fields]

theorem clockBytes_ofClockBytes {bytes : List UInt8} {n : NaiveDateTime}
    (hlen : bytes.length = 6) (h : ofClockBytes bytes = some n) :
    n.Fits ∧ n.clockBytes = bytes := by
  obtain ⟨hyear, hmonth, hday, hhour, hminute, hsecond⟩ := fields_of_fromYmdHmsOpt n h
  match bytes, hlen with
  | [b0, b1, b2, b3, b4, b5], _ =>
    simp only [byteAt, List.getD_cons_zero,
      List.getD_cons_succ] at hyear hmonth hday hhour hminute hsecond
    have hb5 := b5.toNat_lt
    refine ⟨⟨by omega, by omega⟩, ?_⟩
    have hyear' : (n.year - 1900).toNat = b5.toNat := by omega
    rw [clockBytes, hsecond, hminute, hhour, hday, hmonth, hyear', Nat.add_sub_cancel]
    simp only [UInt8.ofNat_toNat]

end NaiveDateTime

section Zone

variable {chrono : Chrono}

theorem rtc_error_iff {t : DateTime} :
    (∃ e, rtc chrono t = .error e) ↔ ¬ (chrono.naiveLocal t).Fits := by
  unfold rtc NaiveDateTime.Fits
  dsimp only
  split
  case isTrue h => simp; omega
  case isFalse h => simp; omega

theorem exists_rtc {t : DateTime} (h : (chrono.naiveLocal t).Fits) :
    ∃ sent, rtc chrono t = .ok sent := by
  cases hrtc : rtc chrono t with
  | error e => exact absurd h (rtc_error_iff.mp ⟨e, hrtc⟩)
  | ok sent => exact ⟨sent, rfl⟩

theorem rtcBytes_rtc {t : DateTime} {sent : List UInt8} (h : rtc chrono t = .ok sent) :
    (chrono.naiveLocal t).Fits ∧ rtcBytes sent = (chrono.naiveLocal t).clockBytes := by
  unfold rtc at h
  dsimp only at h
  split at h
  case isFalse => cases h
  case isTrue hyear =>
    cases h
    exact ⟨⟨by omega, by omega⟩, rfl⟩

theorem frameTimestamp_eq (frame : List UInt8) :
    frameTimestamp chrono frame =
      (NaiveDateTime.ofClockBytes (timestampBytes frame)).bind chrono.localDatetime := by
  have hbyte : ∀ i < 6, byteAt (timestampBytes frame) i = byteAt frame (23 + i) := by
    intro i hi
    simp only [byteAt, timestampBytes, List.getD_eq_getElem?_getD, List.getElem?_take, hi, if_true,
      List.getElem?_drop]
  unfold frameTimestamp NaiveDateTime.ofClockBytes
  rw [hbyte 0 (by decide), hbyte 1 (by decide), hbyte 2 (by decide), hbyte 3 (by decide),
    hbyte 4 (by decide), hbyte 5 (by decide)]

/-! ## The encoder and the decoder -/

variable (chrono)

/-- The time that was written is read back to the second, and it is the earlier of
two instants if the local clock shows it twice. -/
def ReadsBack (t : DateTime) : Prop :=
  ∀ sent frame, rtc chrono t = .ok sent → measurementFrameMinLen ≤ frame.length →
    timestampBytes frame = rtcBytes sent →
    ∃ m, readMeasure chrono frame = .ok m ∧
      chrono.naiveLocal m.timestamp = chrono.naiveLocal t ∧ m.timestamp.nanos = 0 ∧
      ((∀ earlier < t.secs, ¬ chrono.Shows (chrono.naiveLocal t) earlier) →
        m.timestamp = ⟨t.secs, 0⟩) ∧
      ∀ earlier < t.secs, chrono.Shows (chrono.naiveLocal t) earlier → m.timestamp = ⟨earlier, 0⟩

/-- The time that was written is read back as far as the local clock tells. -/
def ReadsSame (t : DateTime) : Prop :=
  ∀ sent frame, rtc chrono t = .ok sent → measurementFrameMinLen ≤ frame.length →
    timestampBytes frame = rtcBytes sent →
    ∃ m, readMeasure chrono frame = .ok m ∧
      chrono.naiveLocal m.timestamp = chrono.naiveLocal t ∧ m.timestamp.nanos = 0

/-- A timestamp that was read, of a time the local clock shows, is written as it was. -/
def WritesBack (frame : List UInt8) : Prop :=
  ∀ m naive, readMeasure chrono frame = .ok m →
    NaiveDateTime.ofClockBytes (timestampBytes frame) = some naive →
    (∃ secs, chrono.Shows naive secs) →
    ∃ sent, rtc chrono m.timestamp = .ok sent ∧ rtcBytes sent = timestampBytes frame

variable {chrono}

theorem readMeasure_ok {frame : List UInt8} {m : Measurement}
    (h : readMeasure chrono frame = .ok m) :
    measurementFrameMinLen ≤ frame.length ∧ frameTimestamp chrono frame = some m.timestamp := by
  unfold readMeasure at h
  split at h
  · cases h
  case isFalse hlen =>
    split at h
    · cases h
    case h_2 heq =>
      cases h
      exact ⟨Nat.le_of_not_lt hlen, heq⟩

theorem exists_readMeasure {frame : List UInt8} {timestamp : DateTime}
    (hlen : measurementFrameMinLen ≤ frame.length)
    (h : frameTimestamp chrono frame = some timestamp) :
    ∃ m, readMeasure chrono frame = .ok m ∧ m.timestamp = timestamp := by
  unfold readMeasure
  rw [if_neg (Nat.not_lt_of_le hlen), h]
  exact ⟨_, rfl, rfl⟩

theorem shows_naiveLocal (t : DateTime) : chrono.Shows (chrono.naiveLocal t) t.secs := rfl

theorem naiveLocal_of_shows {naive : NaiveDateTime} {secs : Int} {nanos : Nat}
    (h : chrono.Shows naive secs) : chrono.naiveLocal ⟨secs, nanos⟩ = naive :=
  congrArg NaiveDateTime.mk h

theorem length_timestampBytes {frame : List UInt8} (h : measurementFrameMinLen ≤ frame.length) :
    (timestampBytes frame).length = 6 := by
  simp only [measurementFrameMinLen] at h
  simp only [timestampBytes, List.length_take, List.length_drop]
  omega

/-- A frame that carries these bytes. -/
def frameOf (bytes : List UInt8) : List UInt8 := List.replicate 23 0 ++ bytes ++ [0]

theorem length_rtcBytes {t : DateTime} {sent : List UInt8} (h : rtc chrono t = .ok sent) :
    (rtcBytes sent).length = 6 := by
  rw [(rtcBytes_rtc h).2]
  rfl

theorem frameOf_spec {bytes : List UInt8} (h : bytes.length = 6) :
    measurementFrameMinLen ≤ (frameOf bytes).length ∧ timestampBytes (frameOf bytes) = bytes := by
  constructor
  · simp [frameOf, measurementFrameMinLen, h]
  · rw [timestampBytes, frameOf, List.append_assoc, List.drop_left' (List.length_replicate ..),
      List.take_left' h]

/-- What is read of a time that was written is what its local time resolves to. -/
theorem exists_read {t found : DateTime} {sent frame : List UInt8}
    (hsent : rtc chrono t = .ok sent) (hlen : measurementFrameMinLen ≤ frame.length)
    (hbytes : timestampBytes frame = rtcBytes sent)
    (hlocal : chrono.localDatetime (chrono.naiveLocal t) = some found) :
    ∃ m, readMeasure chrono frame = .ok m ∧ m.timestamp = found := by
  obtain ⟨hfits, hclock⟩ := rtcBytes_rtc hsent
  refine exists_readMeasure hlen ?_
  rw [frameTimestamp_eq, hbytes, hclock, NaiveDateTime.ofClockBytes_clockBytes hfits]
  exact hlocal

theorem Chrono.Lawful.read (h : chrono.Lawful) {t : DateTime} {sent frame : List UInt8}
    (hsent : rtc chrono t = .ok sent) (hlen : measurementFrameMinLen ≤ frame.length)
    (hbytes : timestampBytes frame = rtcBytes sent) :
    ∃ m found, readMeasure chrono frame = .ok m ∧ m.timestamp = ⟨found, 0⟩ ∧
      chrono.Shows (chrono.naiveLocal t) found ∧
      (¬ chrono.LaterFirst (chrono.naiveLocal t) ↔
        ∀ other, chrono.Shows (chrono.naiveLocal t) other → found ≤ other) := by
  obtain ⟨found, hlocal, hshows, hfirst⟩ := h.localDatetime_eq (shows_naiveLocal t)
  obtain ⟨m, hm, hmt⟩ := exists_read hsent hlen hbytes hlocal
  exact ⟨m, found, hm, hmt, hshows, hfirst⟩

theorem Chrono.Lawful.readsSame (h : chrono.Lawful) (t : DateTime) : ReadsSame chrono t := by
  intro sent frame hsent hlen hbytes
  obtain ⟨m, found, hm, hmt, hshows, -⟩ := h.read hsent hlen hbytes
  refine ⟨m, hm, ?_, by rw [hmt]⟩
  rw [hmt]
  exact naiveLocal_of_shows hshows

/-- **When a time is read back as it was written.** -/
theorem Chrono.Lawful.readsBack_iff (h : chrono.Lawful) (t : DateTime) :
    ReadsBack chrono t ↔
      ((chrono.naiveLocal t).Fits → ¬ chrono.LaterFirst (chrono.naiveLocal t)) := by
  constructor
  · intro hread hfits
    obtain ⟨sent, hsent⟩ := exists_rtc hfits
    obtain ⟨hlen, hbytes⟩ := frameOf_spec (length_rtcBytes hsent)
    obtain ⟨m, found, hm, hmt, hshows, hfirst⟩ := h.read hsent hlen hbytes
    obtain ⟨m', hm', -, -, honce, htwice⟩ := hread sent _ hsent hlen hbytes
    obtain rfl : m = m' := Except.ok.inj (hm.symm.trans hm')
    refine hfirst.mpr fun other hother => Int.not_lt.mp fun hlt => ?_
    -- the instant that was read is not the first: `other` is
    rcases h.two (shows_naiveLocal t) hshows hother with heq | heq | heq
    · have hother' := htwice other (heq ▸ hlt) hother
      rw [hmt] at hother'
      cases hother'
      exact Int.lt_irrefl _ hlt
    · have hthis := honce fun earlier hlt' hearlier => by
        rcases h.two hshows hother hearlier with heq' | heq' | heq' <;> omega
      rw [hmt] at hthis
      cases hthis
      omega
    · omega
  · intro hfirst sent frame hsent hlen hbytes
    obtain ⟨m, found, hm, hmt, hshows, hleast⟩ := h.read hsent hlen hbytes
    have hleast' := hleast.mp (hfirst (rtcBytes_rtc hsent).1)
    refine ⟨m, hm, ?_, by rw [hmt], fun hnone => ?_, fun earlier hlt hearlier => ?_⟩
    · rw [hmt]
      exact naiveLocal_of_shows hshows
    · have hle : found ≤ t.secs := hleast' t.secs (shows_naiveLocal t)
      have hnot : ¬ found < t.secs := fun hlt => hnone found hlt hshows
      rw [hmt, Int.le_antisymm hle (Int.not_lt.mp hnot)]
    · have hle := hleast' earlier hearlier
      rw [hmt]
      rcases h.two hshows hearlier (shows_naiveLocal t) with rfl | heq | heq
      · rfl
      · omega
      · omega

theorem Chrono.Lawful.writesBack (h : chrono.Lawful) (frame : List UInt8) :
    WritesBack chrono frame := by
  intro m naive hread hnaive hgap
  obtain ⟨hlen, htimestamp⟩ := readMeasure_ok hread
  obtain ⟨secs, hsecs⟩ := hgap
  obtain ⟨found, hlocal, hshows, -⟩ := h.localDatetime_eq hsecs
  rw [frameTimestamp_eq, hnaive] at htimestamp
  have hmt : m.timestamp = ⟨found, 0⟩ := Option.some.inj (htimestamp.symm.trans hlocal)
  obtain ⟨hfits, hclock⟩ :=
    NaiveDateTime.clockBytes_ofClockBytes (length_timestampBytes hlen) hnaive
  have hnaiveLocal : chrono.naiveLocal m.timestamp = naive := by
    rw [hmt]
    exact naiveLocal_of_shows hshows
  have hfits' : (chrono.naiveLocal m.timestamp).Fits := hnaiveLocal.symm ▸ hfits
  obtain ⟨sent, hsent⟩ := exists_rtc hfits'
  exact ⟨sent, hsent, by rw [(rtcBytes_rtc hsent).2, hnaiveLocal, hclock]⟩

/-- **When the clock encoder and the timestamp decoder agree**, over every date and
every zone: but for a time that is shown twice and resolves to the later instant. All
else holds throughout: what is read shows the same time, a timestamp is written as it
was read, and only a year that does not fit is refused. -/
theorem clockAgrees_iff (h : chrono.Lawful) :
    (∀ t, ReadsBack chrono t ↔
      ((chrono.naiveLocal t).Fits → ¬ chrono.LaterFirst (chrono.naiveLocal t))) ∧
    (∀ t, ReadsSame chrono t) ∧ (∀ frame, WritesBack chrono frame) ∧
    ∀ t, (∃ e, rtc chrono t = .error e) ↔
      ¬ (1900 ≤ (chrono.naiveLocal t).year ∧ (chrono.naiveLocal t).year ≤ 2155) :=
  ⟨h.readsBack_iff, h.readsSame, h.writesBack, fun _ => rtc_error_iff⟩

/-- A zone in which clocks go back an hour at 2021-10-31 01:00:00 UTC. -/
def goingBack : Chrono := .changing 1635642000 7200 3600 fun _ => .error "not read"

theorem lawful_goingBack : goingBack.Lawful := Chrono.lawful_changing _ _ _ _

theorem clockAgrees_iff_goingBack :
    (∀ t, ReadsBack goingBack t ↔
      ((goingBack.naiveLocal t).Fits → ¬ goingBack.LaterFirst (goingBack.naiveLocal t))) ∧
    (∀ t, ReadsSame goingBack t) ∧ (∀ frame, WritesBack goingBack frame) ∧
    ∀ t, (∃ e, rtc goingBack t = .error e) ↔
      ¬ (1900 ≤ (goingBack.naiveLocal t).year ∧ (goingBack.naiveLocal t).year ≤ 2155) :=
  clockAgrees_iff lawful_goingBack

/-- 02:30 that day, the first time round, is read back as 02:30 the second time
round. -/
theorem not_readsBack_twice : goingBack.Lawful ∧
    goingBack.naiveLocal ⟨1635640200, 0⟩ = goingBack.naiveLocal ⟨1635643800, 0⟩ ∧
    (∃ sent m, rtc goingBack ⟨1635640200, 0⟩ = .ok sent ∧
      readMeasure goingBack (frameOf (rtcBytes sent)) = .ok m ∧ m.timestamp = ⟨1635643800, 0⟩) ∧
    ¬ ReadsBack goingBack ⟨1635640200, 0⟩ := by
  have hfits : (goingBack.naiveLocal ⟨1635640200, 0⟩).Fits := by decide +kernel
  have hlater : goingBack.LaterFirst (goingBack.naiveLocal ⟨1635640200, 0⟩) :=
    ⟨⟨1635643800, 0⟩, ⟨1635640200, 0⟩, by decide +kernel, by decide, shows_naiveLocal _⟩
  have hlocal : goingBack.localDatetime (goingBack.naiveLocal ⟨1635640200, 0⟩) =
      some ⟨1635643800, 0⟩ := by decide +kernel
  refine ⟨lawful_goingBack, by decide +kernel, ?_,
    fun hread => (lawful_goingBack.readsBack_iff _).mp hread hfits hlater⟩
  obtain ⟨sent, hsent⟩ := exists_rtc hfits
  obtain ⟨hlen, hbytes⟩ := frameOf_spec (length_rtcBytes hsent)
  obtain ⟨m, hm, hmt⟩ := exists_read hsent hlen hbytes hlocal
  exact ⟨sent, m, hsent, hm, hmt⟩

end Zone

end Btwattch2
