/-
Btwattch2.LocalTimeTheorems — when resolving a local time comes to an end, and
what it comes to.

A local time names the first instant the local clock shows it at and, where the
clock skips it, the instant an hour before the one an hour later names
(`Named`). `local_datetime` finds that instant except at the ends of what the
clock library can hold, where its arithmetic panics (`noPanic_iff`), where the
library lists the later of two instants first or resolves a time in a gap itself, and
in a gap, where it loses a leap second: `localDatetime_exact_iff` says exactly when.
-/
import Btwattch2.ClockTheorems
import Btwattch2.LocalTime

namespace Btwattch2.LocalTime

section Zone

variable (chrono : Chrono)

/-- An instant that a local time resolves to: a whole second within range, at an
offset of less than a day. -/
structure Found (naive : NaiveDateTime) (t : DateTime) : Prop where
  nanos : t.nanos = 0
  inRange : InRange t.secs
  offset : -secsPerDay < naive.secs - t.secs ∧ naive.secs - t.secs < secsPerDay

/-- How the clock library resolves a local time: as the offset of the zone has it
(`Chrono.Lawful`), but for an instant out of range. -/
structure Resolves : Prop where
  none : ∀ {naive}, chrono.fromLocalDatetime naive = .none →
    (∀ secs, ¬ chrono.Shows naive secs) ∨ ∃ secs, chrono.Shows naive secs ∧ ¬ InRange secs
  single : ∀ {naive t}, chrono.fromLocalDatetime naive = .single t →
    Found naive t ∧ ∀ secs, chrono.Shows naive secs → secs = t.secs
  ambiguous : ∀ {naive t t'}, chrono.fromLocalDatetime naive = .ambiguous t t' →
    Found naive t ∧ InRange t'.secs ∧ chrono.Shows naive t.secs ∧
      ∀ secs, chrono.Shows naive secs → secs = t.secs ∨ secs = t'.secs

/-- The first instant the local clock shows a time at. -/
def First (naive secs : Int) : Prop :=
  chrono.Shows ⟨naive⟩ secs ∧ ∀ other, chrono.Shows ⟨naive⟩ other → secs ≤ other

/-- The local clock skips this time. -/
def Skipped (naive : Int) : Prop := ∀ secs, ¬ chrono.Shows ⟨naive⟩ secs

/-- The instant a local time names: the first one that shows it, and for a time
in a gap the one at the offset in force an hour later. -/
def Named (naive secs : Int) : Prop :=
  First chrono naive secs ∨ Skipped chrono naive ∧ First chrono (naive + hour) (secs + hour)

/-- Resolving a local time returns, and what it returns is the instant the time
names. -/
structure Exact (n : CivilTime) (r : Option DateTime) : Prop where
  eq : localDatetime chrono n = .ok r
  named : ∀ secs, Named chrono n.secs secs → InRange secs → r = some ⟨secs, n.nanos⟩

/-- The clock library resolves this time itself. -/
def Direct (n : CivilTime) : Prop := (earliest chrono n).isSome

/-- What the fallback adds to an unresolved time, and takes from what comes of it,
stays in range. -/
def NoPanic (n : CivilTime) : Prop :=
  Direct chrono n ∨ n.secs + hour ≤ maxSecs ∧
    ∀ t, earliest chrono ⟨n.secs + hour, n.nanos % 1000000000⟩ = some t → minSecs + hour ≤ t.secs

/-- The clock library resolves a time in a gap itself, and not to the instant that
the time names. -/
def Misplaced (n : CivilTime) : Prop :=
  Skipped chrono n.secs ∧ ∃ t secs, earliest chrono n = some t ∧
    Named chrono n.secs secs ∧ InRange secs ∧ secs ≠ t.secs

/-- A time that the library resolves is not one it lists the later instant of first,
nor one it misplaces. An unresolved time that names an instant within range is no leap
second, and an hour later the library resolves to the instant an hour after that
one. -/
def Faithful (n : CivilTime) : Prop :=
  Direct chrono n ∧ ¬ chrono.LaterFirst n.naive ∧ ¬ Misplaced chrono n ∨
    ¬ Direct chrono n ∧ ∀ secs, Named chrono n.secs secs → InRange secs →
      n.nanos < 1000000000 ∧
        ∃ t, earliest chrono ⟨n.secs + hour, n.nanos % 1000000000⟩ = some t ∧ t.secs = secs + hour

variable {chrono}

theorem earliest_eq_some {n : CivilTime} {t : DateTime} : earliest chrono n = some t ↔
    ∃ found, (chrono.fromLocalDatetime n.naive).earliest = some found ∧
    t = ⟨found.secs, n.nanos⟩ := by
  simp [earliest, eq_comm]

theorem nanos_earliest {n : CivilTime} {t : DateTime} (ht : earliest chrono n = some t) :
    t.nanos = n.nanos := by
  obtain ⟨found, -, rfl⟩ := earliest_eq_some.mp ht
  rfl

theorem Resolves.found (h : Resolves chrono) {naive : NaiveDateTime} {t : DateTime}
    (ht : (chrono.fromLocalDatetime naive).earliest = some t) : Found naive t := by
  cases hres : chrono.fromLocalDatetime naive with
  | none =>
    rw [hres] at ht
    cases ht
  | single _ =>
    rw [hres] at ht
    cases ht
    exact (h.single hres).1
  | ambiguous _ _ =>
    rw [hres] at ht
    cases ht
    exact (h.ambiguous hres).1

/-- A shown time resolves to the first instant that shows it, unless the later of two
is listed first. -/
theorem Resolves.first_iff (h : Resolves chrono) {n : CivilTime} {t : DateTime} {secs : Int}
    (ht : earliest chrono n = some t) (hfirst : First chrono n.secs secs) (hrange : InRange secs) :
    ¬ chrono.LaterFirst n.naive ↔ secs = t.secs := by
  obtain ⟨found, hfound, rfl⟩ := earliest_eq_some.mp ht
  obtain ⟨hshows, hleast⟩ := hfirst
  cases hres : chrono.fromLocalDatetime n.naive with
  | none =>
    rw [hres] at hfound
    cases hfound
  | single _ =>
    rw [hres] at hfound
    cases hfound
    refine iff_of_true ?_ ((h.single hres).2 secs hshows)
    rintro ⟨t, t', heq, -⟩
    cases hres.symm.trans heq
  | ambiguous _ second =>
    rw [hres] at hfound
    cases hfound
    obtain ⟨-, -, hshows', honly⟩ := h.ambiguous hres
    constructor
    · intro hnot
      rcases honly secs hshows with heq | rfl
      · exact heq
      · have hle := hleast _ hshows'
        exact Int.le_antisymm hle (Int.not_lt.mp fun hlt => hnot ⟨_, _, hres, hlt, hshows⟩)
    · rintro rfl ⟨t, t', heq, hlt, hshows''⟩
      cases hres.symm.trans heq
      exact absurd (hleast _ hshows'') (Int.not_le.mpr hlt)

theorem First.unique {naive secs secs' : Int} (h : First chrono naive secs)
    (h' : First chrono naive secs') : secs = secs' :=
  Int.le_antisymm (h.2 _ h'.1) (h'.2 _ h.1)

theorem First.not_skipped {naive secs : Int} (h : First chrono naive secs) :
    ¬ Skipped chrono naive := fun hskipped => hskipped secs h.1

theorem Named.unique {naive secs secs' : Int} (h : Named chrono naive secs)
    (h' : Named chrono naive secs') : secs = secs' := by
  rcases h with hfirst | ⟨hskipped, hlater⟩
  · rcases h' with hfirst' | ⟨hskipped, -⟩
    · exact hfirst.unique hfirst'
    · exact absurd hskipped hfirst.not_skipped
  · rcases h' with hfirst' | ⟨-, hlater'⟩
    · exact absurd hskipped hfirst'.not_skipped
    · have := hlater.unique hlater'
      omega

/-! ## The fallback -/

/-- The fallback, for a time an hour later that is resolved or is not. -/
theorem localDatetime_of_not_direct {n : CivilTime} (h : ¬ Direct chrono n) :
    localDatetime chrono n =
      if n.secs + hour ≤ maxSecs then
        match earliest chrono ⟨n.secs + hour, n.nanos % 1000000000⟩ with
        | none => .ok none
        | some t => (subHour t).map some
      else .error .addition := by
  have hnone : earliest chrono n = none := Option.not_isSome_iff_eq_none.mp h
  unfold localDatetime CivilTime.addHour
  rw [hnone]
  by_cases hadd : n.secs + hour ≤ maxSecs
  · rw [if_pos hadd, if_pos hadd]
    dsimp only [bind, Except.bind]
    cases earliest chrono ⟨n.secs + hour, n.nanos % 1000000000⟩ with
    | none => rfl
    | some t =>
      dsimp only
      cases subHour t <;> rfl
  · rw [if_neg hadd, if_neg hadd]
    rfl

theorem subHour_of_nanos {t : DateTime} (h : t.nanos < 1000000000) :
    subHour t = if minSecs + hour ≤ t.secs then .ok ⟨t.secs - hour, t.nanos⟩
      else .error .subtraction := by
  have hleap : ¬ 1000000000 ≤ t.nanos := Nat.not_le_of_lt h
  have hrange : minSecs ≤ t.secs - hour ↔ minSecs + hour ≤ t.secs := by omega
  simp only [subHour, hleap, if_false, Int.add_zero, hrange, Nat.mod_eq_of_lt h]

/-- **When resolving a local time comes to an end.** -/
theorem noPanic_iff (n : CivilTime) :
    (∃ r, localDatetime chrono n = .ok r) ↔ NoPanic chrono n := by
  by_cases hdirect : Direct chrono n
  · obtain ⟨t, ht⟩ := Option.isSome_iff_exists.mp hdirect
    exact ⟨fun _ => .inl hdirect, fun _ => ⟨some t, by rw [localDatetime, ht]⟩⟩
  rw [localDatetime_of_not_direct hdirect, NoPanic, or_iff_right hdirect]
  by_cases hadd : n.secs + hour ≤ maxSecs
  · rw [if_pos hadd]
    cases hlater : earliest chrono ⟨n.secs + hour, n.nanos % 1000000000⟩ with
    | none => simp [hadd]
    | some t =>
      have hnanos : t.nanos < 1000000000 := by
        rw [nanos_earliest hlater]
        exact Nat.mod_lt _ (by decide)
      dsimp only
      rw [subHour_of_nanos hnanos]
      by_cases hsub : minSecs + hour ≤ t.secs <;> simp [hadd, hsub, Except.map]
  · simp [hadd]

/-! ## What it comes to -/

/-- What the fallback comes to where it does not panic. -/
theorem localDatetime_fallback {n : CivilTime} (hdirect : ¬ Direct chrono n)
    (hpanic : NoPanic chrono n) :
    localDatetime chrono n =
      .ok ((earliest chrono ⟨n.secs + hour, n.nanos % 1000000000⟩).map fun t =>
        ⟨t.secs - hour, t.nanos⟩) := by
  obtain ⟨hadd, hsub⟩ := (or_iff_right hdirect).mp hpanic
  rw [localDatetime_of_not_direct hdirect, if_pos hadd]
  cases hlater : earliest chrono ⟨n.secs + hour, n.nanos % 1000000000⟩ with
  | none => rfl
  | some t =>
    have hnanos : t.nanos < 1000000000 := by
      rw [nanos_earliest hlater]
      exact Nat.mod_lt _ (by decide)
    dsimp only
    rw [subHour_of_nanos hnanos, if_pos (hsub t hlater)]
    rfl

/-- A time that the library resolves. -/
theorem exact_iff_of_direct (h : Resolves chrono) {n : CivilTime} (hdirect : Direct chrono n) :
    (∃ r, Exact chrono n r) ↔ ¬ chrono.LaterFirst n.naive ∧ ¬ Misplaced chrono n := by
  obtain ⟨t, ht⟩ := Option.isSome_iff_exists.mp hdirect
  have hlocal : localDatetime chrono n = .ok (some t) := by rw [localDatetime, ht]
  have hnanos := nanos_earliest ht
  constructor
  · rintro ⟨r, hr⟩
    obtain rfl : some t = r := Except.ok.inj (hlocal.symm.trans hr.eq)
    have hsecs : ∀ secs, Named chrono n.secs secs → InRange secs → secs = t.secs := by
      intro secs hnamed hrange
      exact (congrArg DateTime.secs (Option.some.inj (hr.named secs hnamed hrange))).symm
    constructor
    · rintro ⟨first, second, hres, hlt, hshows⟩
      obtain ⟨-, hrange, hshows', honly⟩ := h.ambiguous hres
      have hfirst : First chrono n.secs second.secs := by
        refine ⟨hshows, fun other hother => ?_⟩
        rcases honly other hother with rfl | rfl
        · exact hlt.le
        · exact Int.le_refl _
      exact (h.first_iff ht hfirst hrange).mpr (hsecs _ (.inl hfirst) hrange)
        ⟨first, second, hres, hlt, hshows⟩
    · rintro ⟨-, t', secs, ht', hnamed, hrange, hne⟩
      cases ht.symm.trans ht'
      exact hne (hsecs secs hnamed hrange)
  · rintro ⟨hfirst, hplaced⟩
    refine ⟨some t, hlocal, fun secs hnamed hrange => ?_⟩
    have hsecs : secs = t.secs := by
      rcases hnamed with hnamed | ⟨hskipped, hlater⟩
      · exact (h.first_iff ht hnamed hrange).mp hfirst
      · by_contra hne
        exact hplaced ⟨hskipped, t, secs, ht, .inr ⟨hskipped, hlater⟩, hrange, hne⟩
    rw [hsecs, ← hnanos]

/-- **Exactly when a local time is resolved as its name says**: the library does
it itself, or the fallback stays in range and finds the instant that is named. -/
theorem exact_iff (h : Resolves chrono) (n : CivilTime) :
    (∃ r, Exact chrono n r) ↔ NoPanic chrono n ∧ Faithful chrono n := by
  by_cases hdirect : Direct chrono n
  · rw [exact_iff_of_direct h hdirect]
    constructor
    · exact fun hexact => ⟨.inl hdirect, .inl ⟨hdirect, hexact⟩⟩
    · rintro ⟨-, ⟨-, hexact⟩ | ⟨hnot, -⟩⟩
      · exact hexact
      · exact absurd hdirect hnot
  constructor
  · rintro ⟨r, hr⟩
    have hpanic := (noPanic_iff n).mp ⟨r, hr.eq⟩
    refine ⟨hpanic, .inr ⟨hdirect, fun secs hnamed hrange => ?_⟩⟩
    have heq := hr.eq
    rw [localDatetime_fallback hdirect hpanic, hr.named secs hnamed hrange] at heq
    obtain ⟨t, ht, hsecs⟩ := Option.map_eq_some_iff.mp (Except.ok.inj heq)
    obtain ⟨hsecs, hnanos⟩ := DateTime.mk.inj hsecs
    have htnanos : t.nanos = n.nanos % 1000000000 := nanos_earliest ht
    have hlt : n.nanos % 1000000000 < 1000000000 := Nat.mod_lt _ (by decide)
    exact ⟨by omega, t, ht, by omega⟩
  · rintro ⟨hpanic, hfaithful⟩
    refine ⟨_, localDatetime_fallback hdirect hpanic, fun secs hnamed hrange => ?_⟩
    obtain ⟨-, hfallback⟩ := hfaithful.resolve_left fun hthis => hdirect hthis.1
    obtain ⟨hnanos, t, ht, hsecs⟩ := hfallback secs hnamed hrange
    have htnanos : t.nanos = n.nanos % 1000000000 := nanos_earliest ht
    rw [ht, Option.map_some, hsecs, htnanos, Nat.mod_eq_of_lt hnanos]
    congr 2
    omega

/-! ## Inside the range -/

/-- Two days from either end of the range nothing panics, as an offset is less
than a day. -/
theorem noPanic_of_inside (h : Resolves chrono) {n : CivilTime}
    (hfrom : minSecs + 2 * secsPerDay ≤ n.secs) (hto : n.secs ≤ maxSecs - 2 * secsPerDay) :
    NoPanic chrono n := by
  refine .inr ⟨?_, fun t ht => ?_⟩
  · simp only [hour, secsPerDay] at *
    omega
  · obtain ⟨found, hfound, rfl⟩ := earliest_eq_some.mp ht
    obtain ⟨-, hoffset⟩ := (h.found hfound).offset
    simp only [CivilTime.naive, hour, secsPerDay] at *
    omega

/-- Where nothing panics, the fallback without the ends of the range does the same. -/
theorem localDatetime_eq (h : Resolves chrono) {naive : NaiveDateTime}
    (hpanic : NoPanic chrono ⟨naive.secs, 0⟩) :
    localDatetime chrono ⟨naive.secs, 0⟩ = .ok (chrono.localDatetime naive) := by
  have hearliest : ∀ secs : Int,
      earliest chrono ⟨secs, 0⟩ = (chrono.fromLocalDatetime ⟨secs⟩).earliest := by
    intro secs
    unfold earliest CivilTime.naive
    cases hfound : (chrono.fromLocalDatetime ⟨secs⟩).earliest with
    | none => rfl
    | some t =>
      obtain ⟨found, nanos⟩ := t
      obtain rfl : nanos = 0 := (h.found hfound).nanos
      rfl
  by_cases hdirect : Direct chrono ⟨naive.secs, 0⟩
  · obtain ⟨t, ht⟩ := Option.isSome_iff_exists.mp hdirect
    rw [localDatetime, ht, Chrono.localDatetime, ← hearliest, ht]
    rfl
  · have hfallback : localDatetime chrono ⟨naive.secs, 0⟩ =
        .ok ((earliest chrono ⟨naive.secs + hour, 0⟩).map fun t => ⟨t.secs - hour, t.nanos⟩) :=
      localDatetime_fallback hdirect hpanic
    have hback : (fun t : DateTime => t.addHours (-1)) = fun t => ⟨t.secs - hour, t.nanos⟩ := rfl
    have hnone := Option.not_isSome_iff_eq_none.mp hdirect
    rw [hearliest] at hnone
    rw [hfallback, hearliest, Chrono.localDatetime, hnone, hback]
    rfl

/-- The timestamp of a frame is never near the ends of the range. -/
theorem noPanic_fromYmdHms (h : Resolves chrono) {year month day hours minute second : Nat}
    {naive : NaiveDateTime} (hyear : year ≤ 255)
    (hnaive : NaiveDateTime.fromYmdHmsOpt (1900 + year) month day hours minute second =
      some naive) : NoPanic chrono ⟨naive.secs, 0⟩ := by
  unfold NaiveDateTime.fromYmdHmsOpt at hnaive
  split at hnaive
  case isFalse => cases hnaive
  case isTrue hfields =>
    obtain ⟨hmonth, hmonth', hday, hday', hhour, hminute, hsecond⟩ := hfields
    have hlast : daysInMonth (1900 + year) month ≤ 31 := by
      unfold daysInMonth
      split
      · split <;> decide
      all_goals decide
    obtain rfl := Option.some.inj hnaive
    have hmin : minSecs = -8334601228800 := by decide +kernel
    have hmax : maxSecs = 8210266876799 := by decide +kernel
    refine noPanic_of_inside h ?_ ?_ <;>
      simp only [hmin, hmax, daysFromCivil, secsPerDay] <;> split <;> omega

/-- **The timestamp of a frame is resolved without a panic**, to what is read of it. -/
theorem localDatetime_frame (h : Resolves chrono) {frame : List UInt8} {naive : NaiveDateTime}
    (hnaive : NaiveDateTime.ofClockBytes (timestampBytes frame) = some naive) :
    localDatetime chrono ⟨naive.secs, 0⟩ = .ok (frameTimestamp chrono frame) := by
  have hyear : byteAt (timestampBytes frame) 5 ≤ 255 := by
    have hbyte := ((timestampBytes frame).getD 5 0).toNat_lt
    unfold byteAt
    omega
  rw [localDatetime_eq h (noPanic_fromYmdHms h hyear hnaive), frameTimestamp_eq, hnaive,
    Option.bind_some]

/-! ## The time argument -/

/-- When the time argument is accepted or rejected without aborting. -/
theorem parseTime_iff (chrono : Chrono) (parseFromStr : String → String → Option CivilTime)
    (s : String) :
    (∃ r, parseTime chrono parseFromStr s = .ok r) ↔
      (∃ t, chrono.parseFromRfc3339 s = .ok t) ∨
        ∀ n, readNaive parseFromStr s = some n → NoPanic chrono n := by
  unfold parseTime
  cases hrfc : chrono.parseFromRfc3339 s with
  | ok t => simp
  | error e =>
    cases hread : readNaive parseFromStr s with
    | none => simp
    | some n =>
      have hn : (∃ r, localDatetime chrono n = .ok r) ↔ NoPanic chrono n := noPanic_iff n
      dsimp only
      cases hlocal : localDatetime chrono n with
      | error panic =>
        have hpanic : ¬ NoPanic chrono n := by simp [← hn, hlocal]
        simp [Except.map, hpanic]
      | ok r =>
        have hok : NoPanic chrono n := hn.mp ⟨r, hlocal⟩
        simp [Except.map, hok]

/-- **When resolving a local time neither panics nor misses**, when the time argument
is read to an end, and that the timestamp of a frame always is. -/
theorem localDatetime_exact_iff (h : Resolves chrono) :
    (∀ n, (∃ r, Exact chrono n r) ↔ NoPanic chrono n ∧ Faithful chrono n) ∧
    (∀ parseFromStr s, (∃ r, parseTime chrono parseFromStr s = .ok r) ↔
      (∃ t, chrono.parseFromRfc3339 s = .ok t) ∨
        ∀ n, readNaive parseFromStr s = some n → NoPanic chrono n) ∧
    ∀ frame naive, NaiveDateTime.ofClockBytes (timestampBytes frame) = some naive →
      localDatetime chrono ⟨naive.secs, 0⟩ = .ok (frameTimestamp chrono frame) :=
  ⟨exact_iff h, parseTime_iff chrono, fun _ _ => localDatetime_frame h⟩

end Zone

/-! ## At the ends of the range -/

/-- A zone of which the clock library holds what is within range. -/
def ranged (chrono : Chrono) : Chrono where
  offsetAt := chrono.offsetAt
  fromLocalDatetime naive :=
    match chrono.fromLocalDatetime naive with
    | .none => .none
    | .single t => if InRange t.secs then .single t else .none
    | .ambiguous t t' => if InRange t.secs ∧ InRange t'.secs then .ambiguous t t' else .none
  parseFromRfc3339 := chrono.parseFromRfc3339

theorem resolves_ranged {chrono : Chrono} (h : chrono.Lawful)
    (hoffset : ∀ naive t, (chrono.fromLocalDatetime naive).earliest = some t →
      -secsPerDay < naive.secs - t.secs ∧ naive.secs - t.secs < secsPerDay)
    (hsecond : ∀ naive t t', chrono.fromLocalDatetime naive = .ambiguous t t' → InRange t'.secs) :
    Resolves (ranged chrono) := by
  have hshows : ∀ naive secs, (ranged chrono).Shows naive secs ↔ chrono.Shows naive secs :=
    fun _ _ => Iff.rfl
  constructor
  · intro naive hres
    simp only [hshows]
    simp only [ranged] at hres
    split at hres
    case h_1 hnone => exact .inl (h.none hnone)
    case h_2 t hsingle =>
      split at hres
      · cases hres
      case isFalse hrange =>
        obtain ⟨-, honly⟩ := h.single hsingle
        by_cases hshown : chrono.Shows naive t.secs
        · exact .inr ⟨t.secs, hshown, hrange⟩
        · refine .inl fun secs hsecs => hshown ?_
          rwa [← honly secs hsecs]
    case h_3 t t' hambiguous =>
      split at hres
      · cases hres
      case isFalse hrange =>
        obtain ⟨-, hshown, -⟩ := h.ambiguous hambiguous
        exact .inr ⟨t.secs, hshown, fun ht => hrange ⟨ht, hsecond _ _ _ hambiguous⟩⟩
  · intro naive t hres
    simp only [hshows]
    simp only [ranged] at hres
    split at hres
    · cases hres
    case h_2 hsingle =>
      split at hres
      case isFalse => cases hres
      case isTrue hrange =>
        cases hres
        obtain ⟨hnanos, honly⟩ := h.single hsingle
        exact ⟨⟨hnanos, hrange, hoffset naive t (by rw [hsingle]; rfl)⟩, honly⟩
    · split at hres <;> cases hres
  · intro naive t t' hres
    simp only [hshows]
    simp only [ranged] at hres
    split at hres
    · cases hres
    · split at hres <;> cases hres
    case h_3 hambiguous =>
      split at hres
      case isFalse => cases hres
      case isTrue hrange =>
        cases hres
        obtain ⟨hnanos, hshown, honly⟩ := h.ambiguous hambiguous
        exact ⟨⟨hnanos, hrange.1, hoffset naive t (by rw [hambiguous]; rfl)⟩, hrange.2, hshown,
          honly⟩

/-- A zone that changes its offset once, and reads no text as RFC 3339. -/
def zone (change before after : Int) : Chrono :=
  ranged (.changing change before after fun _ => .error "input contains invalid characters")

theorem resolves_zone {change before after : Int}
    (hchange : minSecs + 2 * secsPerDay ≤ change ∧ change ≤ maxSecs - 2 * secsPerDay)
    (hbefore : -secsPerDay < before ∧ before < secsPerDay)
    (hafter : -secsPerDay < after ∧ after < secsPerDay) : Resolves (zone change before after) := by
  refine resolves_ranged (Chrono.lawful_changing _ _ _ _) (fun naive t ht => ?_)
    fun naive t t' hres => ?_
  · simp only [Chrono.changing] at ht
    split at ht <;> split at ht <;> try split at ht
    all_goals cases ht
    all_goals dsimp only
    all_goals omega
  · simp only [Chrono.changing] at hres
    split at hres <;> split at hres <;> try cases hres
    all_goals split at hres <;> cases hres
    simp only [InRange, secsPerDay] at *
    omega

/-- The zone in which clocks go back an hour at 2021-10-31 01:00:00 UTC. -/
theorem resolves_goingBack : Resolves (zone 1635642000 7200 3600) :=
  resolves_zone (by decide +kernel) (by decide) (by decide)

theorem localDatetime_exact_iff_goingBack :
    (∀ n, (∃ r, Exact (zone 1635642000 7200 3600) n r) ↔
      NoPanic (zone 1635642000 7200 3600) n ∧ Faithful (zone 1635642000 7200 3600) n) ∧
    (∀ parseFromStr s, (∃ r, parseTime (zone 1635642000 7200 3600) parseFromStr s = .ok r) ↔
      (∃ t, (zone 1635642000 7200 3600).parseFromRfc3339 s = .ok t) ∨
        ∀ n, readNaive parseFromStr s = some n → NoPanic (zone 1635642000 7200 3600) n) ∧
    ∀ frame naive, NaiveDateTime.ofClockBytes (timestampBytes frame) = some naive →
      localDatetime (zone 1635642000 7200 3600) ⟨naive.secs, 0⟩ =
        .ok (frameTimestamp (zone 1635642000 7200 3600) frame) :=
  localDatetime_exact_iff resolves_goingBack

/-- What reads the last second of the range. -/
def readsLast (s format : String) : Option CivilTime :=
  if s = "+262142-12-31 23:59:59" ∧ format = "%Y-%m-%d %H:%M:%S" then some ⟨maxSecs, 0⟩ else none

/-- West of Greenwich the last hours of the range do not resolve, and the fallback
panics in the last one. And 02:30 on the day clocks go back resolves to the second
time round. -/
theorem localDatetime_not_exact :
    (Resolves (zone 0 (-18000) (-18000)) ∧ InRange maxSecs ∧
      localDatetime (zone 0 (-18000) (-18000)) ⟨maxSecs, 0⟩ = .error .addition ∧
      (¬ ∃ r, Exact (zone 0 (-18000) (-18000)) ⟨maxSecs, 0⟩ r) ∧
      parseTime (zone 0 (-18000) (-18000)) readsLast "+262142-12-31 23:59:59" =
        .error .addition) ∧
    (Resolves (zone 1635642000 7200 3600) ∧
      localDatetime (zone 1635642000 7200 3600) ⟨1635647400, 0⟩ = .ok (some ⟨1635643800, 0⟩) ∧
      ¬ ∃ r, Exact (zone 1635642000 7200 3600) ⟨1635647400, 0⟩ r) := by
  constructor
  · have hpanic : localDatetime (zone 0 (-18000) (-18000)) ⟨maxSecs, 0⟩ = .error .addition := by
      decide +kernel
    refine ⟨resolves_zone (by decide +kernel) (by decide) (by decide), by decide +kernel, hpanic,
      ?_, by decide +kernel⟩
    rintro ⟨r, hr⟩
    rw [hr.eq] at hpanic
    cases hpanic
  · have hdirect : Direct (zone 1635642000 7200 3600) ⟨1635647400, 0⟩ :=
      show (earliest _ _).isSome = true by decide +kernel
    have hlater : (zone 1635642000 7200 3600).LaterFirst ⟨1635647400⟩ :=
      ⟨⟨1635643800, 0⟩, ⟨1635640200, 0⟩, by decide +kernel, by decide,
        show (1635640200 : Int) + (zone 1635642000 7200 3600).offsetAt 1635640200 = 1635647400 by
          decide +kernel⟩
    exact ⟨resolves_goingBack, by decide +kernel, fun hexact =>
      ((exact_iff_of_direct resolves_goingBack hdirect).mp hexact).1 hlater⟩

end Btwattch2.LocalTime
