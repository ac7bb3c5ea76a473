/-
Btwattch2.WireTheorems — what one end writes is what the other end reads.

A message is read back from its line (`decodeRequest_parse`, `decodeResponse_parse`), and
any number of messages from a stream, however it is cut into pieces (`clientLines_written`).
The order of the members and members of unknown names do not change what is read, and
fields that are left out of a status have their defaults (`decodeStatus_kept`).
-/
import Btwattch2.FloatCodec
import Btwattch2.Lib.JsonTheorems
import Btwattch2.TextTheorems
import Btwattch2.Wire
import Mathlib.Data.List.Nodup

namespace Btwattch2

open Lib

/-- The counters of a status are 64 bits wide. -/
structure AgentStatus.InRange (s : AgentStatus) : Prop where
  uptimeSeconds : s.uptimeSeconds < 2 ^ 64
  samples : s.samples < 2 ^ 64
  reconnects : s.reconnects < 2 ^ 64
  clients : s.clients < 2 ^ 64

namespace Response

/-- The integers of a response fit their types. -/
def InRange : Response → Prop
  | .pong _ status => ∀ s ∈ status, s.InRange
  | .measurement _ _ _ _ timestamp => -2 ^ 63 ≤ timestamp ∧ timestamp < 2 ^ 63
  | _ => True

end Response

/-- Other floats in the same places. -/
def AgentStatus.mapFloats (f : ℚ → ℚ) (s : AgentStatus) : AgentStatus :=
  { s with
    intervalSeconds := f s.intervalSeconds
    lastSampleAgeSeconds := s.lastSampleAgeSeconds.map f }

def AgentStatus.floats (s : AgentStatus) : List ℚ :=
  s.intervalSeconds :: s.lastSampleAgeSeconds.toList

namespace Response

def mapFloats (f : ℚ → ℚ) : Response → Response
  | .pong addr status => .pong addr (status.map (AgentStatus.mapFloats f))
  | .measurement voltage ampere wattage powerFactor timestamp =>
    .measurement (f voltage) (f ampere) (f wattage) (f powerFactor) timestamp
  | r => r

def floats : Response → List ℚ
  | .pong _ status => status.toList.flatMap AgentStatus.floats
  | .measurement voltage ampere wattage powerFactor _ => [voltage, ampere, wattage, powerFactor]
  | _ => []

end Response

namespace Wire

/-! ## The fields of an object -/

theorem lookup_eq_head (members : List (String × WireValue)) (name : String) :
    members.lookup name = ((members.filter (·.1 == name)).head?).map Prod.snd := by
  induction members with
  | nil => rfl
  | cons m members ih =>
    rw [List.lookup_cons, List.filter_cons, BEq.comm]
    cases h : m.1 == name <;> simp [ih]

/-- Two lists of members that say the same of `names`, in whatever order. -/
def SameFor (names : List String) (ms ms' : List (String × WireValue)) : Prop :=
  ∀ name ∈ names, (ms.filter (·.1 == name)).Perm (ms'.filter (·.1 == name))

theorem SameFor.mono {names : List String} {ms ms' : List (String × WireValue)}
    (h : SameFor names ms ms') (names' : List String) (hsub : names' ⊆ names) :
    SameFor names' ms ms' :=
  fun name hname => h name (hsub hname)

/-- The order does not matter, nor do members of other names. -/
theorem sameFor_of_perm {names : List String} {ms ms' unknown : List (String × WireValue)}
    (hperm : ms'.Perm (ms ++ unknown)) (hunknown : ∀ m ∈ unknown, m.1 ∉ names) :
    SameFor names ms' ms := by
  intro name hname
  have hnone : unknown.filter (·.1 == name) = [] := by
    rw [List.filter_eq_nil_iff]
    rintro m hm heq
    exact hunknown m hm (eq_of_beq heq ▸ hname)
  have hfilter := hperm.filter (·.1 == name)
  rwa [List.filter_append, hnone, List.append_nil] at hfilter

theorem filter_eq_of_length_le {names : List String} {ms ms' : List (String × WireValue)}
    (h : SameFor names ms ms') {name : String} (hname : name ∈ names)
    (hone : (ms'.filter (·.1 == name)).length ≤ 1) :
    ms.filter (·.1 == name) = ms'.filter (·.1 == name) := by
  have hperm := h name hname
  rcases hfilter : ms'.filter (·.1 == name) with _ | ⟨m, _ | ⟨m', rest⟩⟩ <;>
    rw [hfilter] at hperm hone ⊢
  · exact List.perm_nil.mp hperm
  · exact List.perm_singleton.mp hperm
  · simp at hone

/-- What is read of the fields is told by the members that have their names. -/
theorem readFields_congr {names : List String} {ms ms' : List (String × WireValue)}
    (h : SameFor names ms ms') : readFields names (.obj ms) = readFields names (.obj ms') := by
  have hcount : ∀ name ∈ names, ms.countP (·.1 == name) = ms'.countP (·.1 == name) :=
    fun name hname => by
      rw [List.countP_eq_length_filter, List.countP_eq_length_filter, (h name hname).length_eq]
  have honce : (∀ name ∈ names, ms.countP (·.1 == name) ≤ 1) ↔
      ∀ name ∈ names, ms'.countP (·.1 == name) ≤ 1 :=
    forall₂_congr fun name hname => by rw [hcount name hname]
  simp only [readFields]
  by_cases hms : ∀ name ∈ names, ms.countP (·.1 == name) ≤ 1
  · rw [if_pos hms, if_pos (honce.mp hms)]
    refine congrArg some (List.map_congr_left fun name hname => ?_)
    have hone := honce.mp hms name hname
    rw [List.countP_eq_length_filter] at hone
    rw [lookup_eq_head, lookup_eq_head, filter_eq_of_length_le h hname hone]
  · rw [if_neg hms, if_neg (mt honce.mpr hms)]

/-- Of fields of different names those that are there are read off an object of them. -/
theorem readFields_filter (fields : List (String × WireValue)) (kept : String → Bool)
    (h : (fields.map Prod.fst).Nodup) :
    readFields (fields.map Prod.fst) (.obj (fields.filter fun m => kept m.1)) =
      some (fields.map fun m => if kept m.1 then some m.2 else none) := by
  have honce : ∀ name ∈ fields.map Prod.fst,
      (fields.filter fun m => kept m.1).countP (·.1 == name) ≤ 1 := fun name _ => by
    have hcount := List.nodup_iff_count_le_one.mp h name
    rw [List.count, List.countP_map] at hcount
    exact Nat.le_trans (List.filter_sublist.countP_le) hcount
  have hlookup : ∀ m ∈ fields, (fields.filter fun m => kept m.1).lookup m.1 =
      if kept m.1 then some m.2 else none := by
    clear honce
    induction fields with
    | nil => simp
    | cons first fields ih =>
      rw [List.map_cons, List.nodup_cons] at h
      obtain ⟨name, value⟩ := first
      have habsent : (fields.filter fun m => kept m.1).lookup name = none := by
        rw [lookup_eq_head, List.filter_filter, List.filter_eq_nil_iff.mpr]
        · rfl
        · rintro m hm hboth
          rw [Bool.and_eq_true, beq_iff_eq] at hboth
          exact h.1 (List.mem_map.mpr ⟨m, hm, hboth.1⟩)
      rw [List.forall_mem_cons]
      refine ⟨?_, fun m hm => ?_⟩
      · by_cases hkept : kept name = true
        · simp [hkept]
        · simp [hkept, habsent]
      · have hne : (m.1 == name) = false := by
          rw [beq_eq_false_iff_ne]
          rintro rfl
          exact h.1 (List.mem_map.mpr ⟨m, hm, rfl⟩)
        have hrest := ih h.2 m hm
        by_cases hkept : kept name = true
        · simpa [List.filter_cons, hkept, List.lookup_cons, hne] using hrest
        · simpa [List.filter_cons, hkept] using hrest
  simp only [readFields]
  rw [if_pos honce, List.map_map]
  exact congrArg some (List.map_congr_left hlookup)

theorem readFields_fields (fields : List (String × WireValue))
    (h : (fields.map Prod.fst).Nodup) :
    readFields (fields.map Prod.fst) (.obj fields) = some (fields.map fun m => some m.2) := by
  simpa using readFields_filter fields (fun _ => true) h

/-- The tag and the rest are told by the members that have their names. -/
theorem readTag_congr {tag : String} {names : List String} {ms ms' : List (String × WireValue)}
    (h : SameFor (tag :: names) ms ms') (htag : tag ∉ names) :
    (readTag tag (.obj ms) = none ∧ readTag tag (.obj ms') = none) ∨
      ∃ variant rest rest', readTag tag (.obj ms) = some (variant, .obj rest) ∧
        readTag tag (.obj ms') = some (variant, .obj rest') ∧ SameFor names rest rest' := by
  have hrest : SameFor names (ms.filter (·.1 != tag)) (ms'.filter (·.1 != tag)) := by
    intro name hname
    have hne : ∀ m : String × WireValue, ((m.1 == name) && (m.1 != tag)) = (m.1 == name) := by
      intro m
      by_cases heq : m.1 = name
      · have : m.1 ≠ tag := fun htagged => htag (htagged ▸ heq ▸ hname)
        simp [heq, heq ▸ this]
      · simp [heq]
    simpa only [List.filter_filter, hne] using h name (List.mem_cons_of_mem _ hname)
  by_cases hone : (ms'.filter (·.1 == tag)).length ≤ 1
  · have heq := filter_eq_of_length_le h List.mem_cons_self hone
    rcases hsame : ms'.filter (·.1 == tag) with _ | ⟨⟨key, value⟩, _ | ⟨m', more⟩⟩ <;>
      rw [hsame] at heq <;> simp only [readTag, heq, hsame]
    · simp
    · cases value with
      | str variant => exact .inr ⟨variant, _, _, rfl, rfl, hrest⟩
      | _ => simp
    · simp
  · have hlength := (h tag List.mem_cons_self).length_eq
    have hnone : ∀ {ms : List (String × WireValue)}, ¬ (ms.filter (·.1 == tag)).length ≤ 1 →
        readTag tag (.obj ms) = none := by
      intro ms hmany
      simp only [readTag]
      split
      next heq => simp [heq] at hmany
      next => rfl
    exact .inl ⟨hnone (hlength ▸ hone), hnone hone⟩

theorem readTag_tagged {tag variant : String} {fields : List (String × WireValue)}
    (h : ∀ m ∈ fields, m.1 ≠ tag) :
    readTag tag (tagged tag variant fields) = some (variant, .obj fields) := by
  have hnone : fields.filter (·.1 == tag) = [] := by
    rw [List.filter_eq_nil_iff]
    exact fun m hm => by simpa using h m hm
  have hall : fields.filter (·.1 != tag) = fields := by
    rw [List.filter_eq_self]
    exact fun m hm => by simpa using h m hm
  simp [readTag, tagged, hnone, hall]

/-! ## Messages as values -/

theorem asInt_int {low high n : Int} (hlow : low ≤ n) (hhigh : n ≤ high) :
    asInt low high (.int n) = some n := if_pos ⟨hlow, hhigh⟩

theorem asU64_natCast {n : Nat} (h : n < 2 ^ 64) : asU64 (.int n) = some n := by
  rw [asU64, asInt_int (by omega) (by omega)]
  rfl

theorem asU8_toNat (code : UInt8) : asU8 (.int code.toNat) = some code := by
  have hlt := code.toNat_lt
  rw [asU8, asInt_int (by omega) (by omega)]
  simp

theorem asOption_ofOption {α : Type} (encode : α → WireValue) (decode : WireValue → Option α)
    (a : Option α) (hnull : ∀ a, encode a ≠ .null) (h : ∀ x ∈ a, decode (encode x) = some x) :
    asOption decode (ofOption encode a) = some a := by
  cases a with
  | none => rfl
  | some x =>
    rw [ofOption]
    unfold asOption
    split
    next heq => exact absurd heq (hnull x)
    next => rw [h x rfl]; rfl

theorem decodeRequest_encode (request : Request) :
    decodeRequest (encodeRequest request) = some request := by
  cases request with
  | setRtc time =>
    have hfields := readFields_fields [("time", .str time)] (by simp)
    rw [encodeRequest, decodeRequest, readTag_tagged (by simp)]
    show requestBody "set_rtc" _ = _
    rw [requestBody]
    simp only [List.map_cons, List.map_nil] at hfields
    rw [hfields]
    rfl
  | power on =>
    rw [encodeRequest, decodeRequest, readTag_tagged (by simp)]
    rfl
  | _ => rfl

/-! ## Messages of other versions -/

def requestNames : List String := ["time", "on"]

def responseNames : List String :=
  ["addr", "status", "message", "voltage", "ampere", "wattage", "power_factor", "timestamp", "code"]

theorem requestBody_congr {variant : String} {ms ms' : List (String × WireValue)}
    (h : SameFor requestNames ms ms') :
    requestBody variant (.obj ms) = requestBody variant (.obj ms') := by
  have htime := readFields_congr (h.mono ["time"] (by decide))
  have hon := readFields_congr (h.mono ["on"] (by decide))
  unfold requestBody
  simp only [htime, hon, readUnit]

theorem responseBody_congr {variant : String} {ms ms' : List (String × WireValue)}
    (h : SameFor responseNames ms ms') :
    responseBody variant (.obj ms) = responseBody variant (.obj ms') := by
  have hpong := readFields_congr (h.mono ["addr", "status"] (by decide))
  have herror := readFields_congr (h.mono ["message"] (by decide))
  have hmeasurement := readFields_congr
    (h.mono ["voltage", "ampere", "wattage", "power_factor", "timestamp"] (by decide))
  have hresult := readFields_congr (h.mono ["code"] (by decide))
  unfold responseBody
  simp only [hpong, herror, hmeasurement, hresult, readUnit]

/-- The order of the members does not matter, nor do members that are not known. -/
theorem decode_perm {ms ms' unknown : List (String × WireValue)}
    (hperm : ms'.Perm (ms ++ unknown)) :
    ((∀ m ∈ unknown, m.1 ∉ "cmd" :: requestNames) →
      decodeRequest (.obj ms') = decodeRequest (.obj ms)) ∧
    ((∀ m ∈ unknown, m.1 ∉ "type" :: responseNames) →
      decodeResponse (.obj ms') = decodeResponse (.obj ms)) := by
  constructor
  · intro hunknown
    rcases readTag_congr (sameFor_of_perm hperm hunknown) (by decide) with
      ⟨hms', hms⟩ | ⟨variant, rest', rest, hms', hms, hsame⟩
    · rw [decodeRequest, decodeRequest, hms', hms]
    · rw [decodeRequest, decodeRequest, hms', hms]
      exact requestBody_congr hsame
  · intro hunknown
    rcases readTag_congr (sameFor_of_perm hperm hunknown) (by decide) with
      ⟨hms', hms⟩ | ⟨variant, rest', rest, hms', hms, hsame⟩
    · rw [decodeResponse, decodeResponse, hms', hms]
    · rw [decodeResponse, decodeResponse, hms', hms]
      exact responseBody_congr hsame

theorem decode_perm_power :
    decodeRequest (.obj [("then", .null), ("on", .bool true), ("cmd", .str "power")]) =
      decodeRequest (.obj [("cmd", .str "power"), ("on", .bool true)]) :=
  (@decode_perm [("cmd", .str "power"), ("on", .bool true)] _ [("then", .null)]
    (List.reverse_perm _)).1 (by decide)

/-- The fields of the names `kept`, and the defaults for the others. -/
def keep (kept : String → Bool) (s : AgentStatus) : AgentStatus where
  uptimeSeconds := if kept "uptime_seconds" then s.uptimeSeconds else 0
  intervalSeconds := if kept "interval_seconds" then s.intervalSeconds else 0
  connected := if kept "connected" then s.connected else false
  samples := if kept "samples" then s.samples else 0
  lastSampleAgeSeconds := if kept "last_sample_age_seconds" then s.lastSampleAgeSeconds else none
  reconnects := if kept "reconnects" then s.reconnects else 0
  clients := if kept "clients" then s.clients else 0
  metricsListen := if kept "metrics_listen" then s.metricsListen else none

theorem defaulted_ite {α : Type} {decode : WireValue → Option α} {v : WireValue} {a d : α}
    (h : decode v = some a) (b : Bool) :
    defaulted d decode (if b then some v else none) = some (if b then a else d) := by
  cases b
  · rfl
  · exact h

theorem decodeStatus_of_fields {s : AgentStatus} (h : s.InRange) (kept : String → Bool)
    {ms : List (String × WireValue)}
    (hfields : readFields statusNames (.obj ms) =
      some ((statusFields s).map fun m => if kept m.1 then some m.2 else none)) :
    decodeStatus (.obj ms) = some (keep kept s) := by
  have hage := asOption_ofOption Json.float asF64 s.lastSampleAgeSeconds (by simp) (by simp [asF64])
  have hlisten := asOption_ofOption Json.str asString s.metricsListen (by simp) (by simp [asString])
  have hinterval : asF64 (.float s.intervalSeconds) = some s.intervalSeconds := rfl
  have hconnected : asBool (.bool s.connected) = some s.connected := rfl
  rw [decodeStatus, hfields]
  simp only [statusFields, List.map_cons, List.map_nil, Option.bind_eq_bind, Option.bind_some,
    defaulted_ite (asU64_natCast h.uptimeSeconds), defaulted_ite hinterval,
    defaulted_ite hconnected, defaulted_ite (asU64_natCast h.samples), defaulted_ite hage,
    defaulted_ite (asU64_natCast h.reconnects), defaulted_ite (asU64_natCast h.clients),
    defaulted_ite hlisten]
  rfl

theorem nodup_statusFields (s : AgentStatus) : ((statusFields s).map Prod.fst).Nodup := by
  simp [statusFields]

/-- A status of another version: some of the fields, in some order, and fields that are
not known here. -/
theorem decodeStatus_kept {s : AgentStatus} (h : s.InRange) (kept : String → Bool)
    {ms unknown : List (String × WireValue)} (hunknown : ∀ m ∈ unknown, m.1 ∉ statusNames)
    (hperm : ms.Perm ((statusFields s).filter (fun m => kept m.1) ++ unknown)) :
    decodeStatus (.obj ms) = some (keep kept s) := by
  refine decodeStatus_of_fields h kept ?_
  rw [readFields_congr (sameFor_of_perm hperm hunknown)]
  exact readFields_filter (statusFields s) kept (nodup_statusFields s)

theorem decodeStatus_kept_samples :
    decodeStatus (.obj [("serial", .null), ("samples", .int 7)]) =
      some ⟨0, 0, false, 7, none, 0, 0, none⟩ :=
  @decodeStatus_kept ⟨3, 1, true, 7, none, 2, 1, none⟩
    ⟨by decide, by decide, by decide, by decide⟩ (fun name => name == "samples")
    [("serial", .null), ("samples", .int 7)] [("serial", .null)] (by decide)
    (List.Perm.swap _ _ _)

theorem decodeStatus_encode {s : AgentStatus} (h : s.InRange) :
    decodeStatus (encodeStatus s) = some s := by
  have hfields : readFields statusNames (.obj (statusFields s)) =
      some ((statusFields s).map fun m => some m.2) :=
    readFields_fields (statusFields s) (nodup_statusFields s)
  exact decodeStatus_of_fields h (fun _ => true) (by simpa using hfields)

/-! ## Responses as values -/

theorem decodeResponse_encode {r : Response} (h : r.InRange) :
    decodeResponse (encodeResponse r) = some r := by
  cases r with
  | ok => rfl
  | streamEnd => rfl
  | pong addr status =>
    have haddr := asOption_ofOption Json.str asString addr (by simp) (by simp [asString])
    have hstatus := asOption_ofOption encodeStatus decodeStatus status (by simp [encodeStatus])
      fun s hs => decodeStatus_encode (h s hs)
    have hfields := readFields_fields
      [("addr", ofOption .str addr), ("status", ofOption encodeStatus status)] (by simp)
    simp only [List.map_cons, List.map_nil] at hfields
    rw [encodeResponse, decodeResponse, readTag_tagged (by simp)]
    show responseBody "pong" _ = _
    rw [responseBody]
    simp [hfields, defaulted, haddr, hstatus]
  | error message =>
    have hfields := readFields_fields [("message", .str message)] (by simp)
    simp only [List.map_cons, List.map_nil] at hfields
    rw [encodeResponse, decodeResponse, readTag_tagged (by simp)]
    show responseBody "error" _ = _
    rw [responseBody]
    simp [hfields, asString]
  | measurement voltage ampere wattage powerFactor timestamp =>
    have hfields := readFields_fields
      [("voltage", .float voltage), ("ampere", .float ampere), ("wattage", .float wattage),
        ("power_factor", .float powerFactor), ("timestamp", .int timestamp)] (by simp)
    simp only [List.map_cons, List.map_nil] at hfields
    have htimestamp : asI64 (.int timestamp) = some timestamp :=
      asInt_int h.1 (Int.le_sub_one_of_lt h.2)
    rw [encodeResponse, decodeResponse, readTag_tagged (by simp)]
    show responseBody "measurement" _ = _
    rw [responseBody]
    simp [hfields, asF64, htimestamp]
  | commandResult code =>
    have hfields := readFields_fields [("code", .int code.toNat)] (by simp)
    simp only [List.map_cons, List.map_nil] at hfields
    rw [encodeResponse, decodeResponse, readTag_tagged (by simp)]
    show responseBody "command_result" _ = _
    rw [responseBody]
    simp [hfields, asU8_toNat]

/-! ## Well-formed messages -/

theorem asInt_eq_some {low high n : Int} {v : WireValue} (h : asInt low high v = some n) :
    low ≤ n ∧ n ≤ high := by
  unfold asInt at h
  split at h
  next m =>
    split at h
    next hrange => cases h; exact hrange
    next => cases h
  next => cases h

theorem asU64_lt {v : WireValue} {n : Nat} (h : asU64 v = some n) : n < 2 ^ 64 := by
  obtain ⟨m, hm, rfl⟩ := Option.map_eq_some_iff.mp h
  have hrange := asInt_eq_some hm
  omega

theorem defaulted_asU64_lt {v : Option WireValue} {n : Nat} (h : defaulted 0 asU64 v = some n) :
    n < 2 ^ 64 := by
  cases v with
  | none => cases h; decide
  | some v => exact asU64_lt h

theorem decodeStatus_inRange {v : WireValue} {s : AgentStatus} (h : decodeStatus v = some s) :
    s.InRange := by
  unfold decodeStatus at h
  obtain ⟨fields, -, h⟩ := Option.bind_eq_some_iff.mp h
  split at h
  next =>
    simp only [Option.bind_eq_bind, Option.bind_eq_some_iff] at h
    obtain ⟨uptime, huptime, interval, -, connected, -, samples, hsamples, age, -, reconnects,
      hreconnects, clients, hclients, listen, -, hs⟩ := h
    cases hs
    exact ⟨defaulted_asU64_lt huptime, defaulted_asU64_lt hsamples,
      defaulted_asU64_lt hreconnects, defaulted_asU64_lt hclients⟩
  next => cases h

theorem defaulted_status_inRange {v : Option WireValue} {s : AgentStatus}
    (h : defaulted none (asOption decodeStatus) v = some (some s)) : s.InRange := by
  cases v with
  | none => cases h
  | some v =>
    simp only [defaulted, asOption] at h
    split at h
    next => cases h
    next =>
      obtain ⟨t, ht, heq⟩ := Option.map_eq_some_iff.mp h
      cases heq
      exact decodeStatus_inRange ht

theorem decodeResponse_inRange {v : WireValue} {r : Response} (h : decodeResponse v = some r) :
    r.InRange := by
  obtain ⟨⟨variant, body⟩, -, h⟩ := Option.bind_eq_some_iff.mp h
  simp only [responseBody] at h
  split at h
  case h_1 =>
    obtain ⟨_, -, rfl⟩ := Option.map_eq_some_iff.mp h
    trivial
  case h_2 =>
    obtain ⟨fields, -, h⟩ := Option.bind_eq_some_iff.mp h
    split at h
    case h_2 => cases h
    simp only [Option.bind_eq_bind, Option.bind_eq_some_iff] at h
    obtain ⟨addr, -, status, hstatus, hr⟩ := h
    cases hr
    exact fun s hs => defaulted_status_inRange (hs ▸ hstatus)
  case h_3 =>
    obtain ⟨fields, -, h⟩ := Option.bind_eq_some_iff.mp h
    split at h
    case h_2 => cases h
    obtain ⟨_, -, hr⟩ := Option.bind_eq_some_iff.mp h
    cases hr
    trivial
  case h_4 =>
    obtain ⟨fields, -, h⟩ := Option.bind_eq_some_iff.mp h
    split at h
    case h_2 => cases h
    simp only [Option.bind_eq_bind, Option.bind_eq_some_iff] at h
    obtain ⟨voltage, -, ampere, -, wattage, -, powerFactor, -, timestamp, htimestamp, hr⟩ := h
    cases hr
    obtain ⟨_, -, hint⟩ := htimestamp
    have hrange := asInt_eq_some hint
    exact ⟨hrange.1, by omega⟩
  case h_5 =>
    obtain ⟨fields, -, h⟩ := Option.bind_eq_some_iff.mp h
    split at h
    case h_2 => cases h
    obtain ⟨_, -, hr⟩ := Option.bind_eq_some_iff.mp h
    cases hr
    trivial
  case h_6 =>
    obtain ⟨_, -, rfl⟩ := Option.map_eq_some_iff.mp h
    trivial
  case h_7 => cases h

/-- What is accepted is well formed, and says the same when it is written again. -/
theorem decodeResponse_stable {v : WireValue} {r : Response} (h : decodeResponse v = some r) :
    r.InRange ∧ decodeResponse (encodeResponse r) = some r :=
  ⟨decodeResponse_inRange h, decodeResponse_encode (decodeResponse_inRange h)⟩

/-- A status in another order, with a whole number for a float, a member of an unknown
name and one left out. -/
theorem decodeResponse_stable_pong :
    Response.InRange (.pong (some "DA:57") (some ⟨90, 1 / 2, true, 7, some 3, 1, 2, none⟩)) ∧
      decodeResponse (encodeResponse
        (.pong (some "DA:57") (some ⟨90, 1 / 2, true, 7, some 3, 1, 2, none⟩))) =
          some (.pong (some "DA:57") (some ⟨90, 1 / 2, true, 7, some 3, 1, 2, none⟩)) :=
  decodeResponse_stable (v := .obj [("addr", .str "DA:57"), ("type", .str "pong"),
    ("status", .obj [("samples", .int 7), ("uptime_seconds", .int 90), ("serial", .null),
      ("connected", .bool true), ("interval_seconds", .float (1 / 2)),
      ("last_sample_age_seconds", .int 3), ("clients", .int 2), ("reconnects", .int 1)])])
    (by decide +kernel)

/-! ## Messages as text -/

section

variable {codec : Json.FloatCodec ℚ} {f : ℚ → ℚ}

theorem encodeStatus_mapFloats (s : AgentStatus) :
    Json.mapFloats f (encodeStatus s) = encodeStatus (s.mapFloats f) := by
  obtain ⟨_, _, _, _, age, _, _, listen⟩ := s
  cases age <;> cases listen <;>
    simp [encodeStatus, statusFields, AgentStatus.mapFloats, ofOption, Json.mapFloats,
      Json.mapMembers]

theorem encodeResponse_mapFloats (r : Response) :
    Json.mapFloats f (encodeResponse r) = encodeResponse (r.mapFloats f) := by
  cases r with
  | pong addr status =>
    cases addr <;> cases status <;>
      simp [encodeResponse, tagged, Response.mapFloats, ofOption, Json.mapFloats, Json.mapMembers,
        encodeStatus_mapFloats]
  | _ => simp [encodeResponse, tagged, Response.mapFloats, Json.mapFloats, Json.mapMembers]

theorem encodeRequest_mapFloats (request : Request) :
    Json.mapFloats f (encodeRequest request) = encodeRequest request := by
  cases request <;> simp [encodeRequest, tagged, Json.mapFloats, Json.mapMembers]

open Json (Carries)

theorem carries_natCast {n depth : Nat} (h : n < 2 ^ 64) : Carries codec f depth (.int n) :=
  .int ⟨by omega, by omega⟩

theorem carries_encodeRequest (request : Request) (depth : Nat) :
    Carries codec f (depth + 1) (encodeRequest request) := by
  cases request <;>
    exact .obj (by simp [Carries.str, Carries.bool])

theorem carries_encodeStatus {s : AgentStatus} (h : s.InRange)
    (hf : ∀ x ∈ s.floats, codec.read (codec.write x) = some (f x)) (depth : Nat) :
    Carries codec f (depth + 1) (encodeStatus s) := by
  have hage : Carries codec f depth (ofOption .float s.lastSampleAgeSeconds) := by
    cases hage : s.lastSampleAgeSeconds with
    | none => exact .null
    | some x => exact .float (hf x (by simp [AgentStatus.floats, hage]))
  have hlisten : Carries codec f depth (ofOption .str s.metricsListen) := by
    cases s.metricsListen with
    | none => exact .null
    | some listen => exact .str listen
  refine .obj ?_
  simp only [statusFields, List.forall_mem_cons, List.not_mem_nil, false_imp_iff, implies_true,
    and_true]
  exact ⟨carries_natCast h.uptimeSeconds, .float (hf _ List.mem_cons_self), .bool _,
    carries_natCast h.samples, hage, carries_natCast h.reconnects, carries_natCast h.clients,
    hlisten⟩

theorem carries_encodeResponse {r : Response} (h : r.InRange)
    (hf : ∀ x ∈ r.floats, codec.read (codec.write x) = some (f x)) (depth : Nat) :
    Carries codec f (depth + 2) (encodeResponse r) := by
  cases r with
  | pong addr status =>
    have haddr : Carries codec f (depth + 1) (ofOption .str addr) := by
      cases addr with
      | none => exact .null
      | some addr => exact .str addr
    have hstatus : Carries codec f (depth + 1) (ofOption encodeStatus status) := by
      cases status with
      | none => exact .null
      | some s =>
        exact carries_encodeStatus (h s rfl) (fun x hx => hf x (by simpa [Response.floats] using hx))
          depth
    refine .obj ?_
    simp only [List.forall_mem_cons, List.not_mem_nil, false_imp_iff, implies_true, and_true]
    exact ⟨.str _, haddr, hstatus⟩
  | measurement voltage ampere wattage powerFactor timestamp =>
    simp only [Response.floats, List.forall_mem_cons, List.not_mem_nil, false_imp_iff,
      implies_true, and_true] at hf
    refine .obj ?_
    simp only [List.forall_mem_cons, List.not_mem_nil, false_imp_iff, implies_true, and_true]
    exact ⟨.str _, .float hf.1, .float hf.2.1, .float hf.2.2.1, .float hf.2.2.2,
      .int ⟨h.1, by have := h.2; omega⟩⟩
  | commandResult code =>
    refine .obj ?_
    simp only [List.forall_mem_cons, List.not_mem_nil, false_imp_iff, implies_true, and_true]
    exact ⟨.str _, carries_natCast (Nat.lt_trans code.toNat_lt (by decide))⟩
  | _ => exact .obj (by simp [Carries.str])

/-! ## Messages as lines -/

theorem messageBytes_eq (v : WireValue) :
    messageBytes codec v = utf8 (Json.print codec v ++ ['\n']) := by
  rw [utf8_append]
  rfl

/-- The line a message is written on. -/
def messageLine (codec : Json.FloatCodec ℚ) (v : WireValue) : List UInt8 :=
  utf8 (Json.print codec v)

theorem newline_not_mem_messageLine (v : WireValue) : (0x0A : UInt8) ∉ messageLine codec v :=
  fun h => absurd (clear_utf8 (Json.isClear_print v) h) (by decide)

theorem lineText_utf8 (cs : List Char) : lineText (utf8 cs) = some (String.ofList cs) :=
  fromUTF8_utf8 cs

theorem stripEnding_newline {line : List UInt8} (h : ∀ b ∈ line, 0x20 ≤ b.toNat) :
    stripEnding (line ++ [0x0A]) = line := by
  have hreturn : line.getLast? ≠ some 0x0D := fun hlast =>
    absurd (h _ (List.mem_of_getLast? hlast)) (by decide)
  simp [stripEnding, hreturn]

/-- Trimming takes the line end off. -/
theorem trim_line {cs : List Char} (h : ∃ body, cs = '\x7b' :: (body ++ ['\x7d'])) :
    Text.trim (String.ofList (cs ++ ['\n'])) = String.ofList cs := by
  obtain ⟨body, rfl⟩ := h
  simp [Text.trim, Text.trimStart, Text.trimEnd, Text.isWhitespace]

theorem print_obj (members : List (String × WireValue)) :
    ∃ body, Json.print codec (.obj members) = '\x7b' :: (body ++ ['\x7d']) :=
  ⟨_, by rw [Json.print]⟩

/-- A request is understood as it was meant, in whatever pieces its line arrives. -/
theorem parseRequest_line (request : Request) (complaint : String → String) :
    parseRequest codec complaint (String.ofList (Json.print codec (encodeRequest request))) =
      .ok request := by
  have hparse : Json.parse codec (Json.print codec (encodeRequest request)) =
      some (Json.mapFloats id (encodeRequest request)) :=
    Json.parse_print (carries_encodeRequest request 126)
  rw [parseRequest, String.toList_ofList, hparse, encodeRequest_mapFloats]
  simp [decodeRequest_encode]

/-- The first line of what a client wrote. -/
theorem nextLine_message {ε : Type} {s : Source UInt8 ε} {v : WireValue} {rest : List UInt8}
    (h : s.contents = messageBytes codec v ++ rest) :
    nextLine s = some (messageLine codec v) := by
  have hcontents : s.contents = messageLine codec v ++ 0x0A :: rest := by
    rw [h, messageBytes, List.append_assoc]
    rfl
  obtain ⟨t, hread, -, -⟩ := Source.readUntil_append (newline_not_mem_messageLine v) hcontents
  have hclear : ∀ b ∈ messageLine codec v, 0x20 ≤ b.toNat := fun b hb =>
    clear_utf8 (Json.isClear_print v) hb
  rw [nextLine, hread]
  cases hline : messageLine codec v ++ [0x0A] with
  | nil => simp at hline
  | cons b line =>
    simp only [← hline]
    exact congrArg some (stripEnding_newline hclear)

theorem clientLine_response {r : Response} (h : r.InRange)
    (hf : ∀ x ∈ r.floats, codec.read (codec.write x) = some (f x)) :
    clientLine codec (messageBytes codec (encodeResponse r)) = .response (r.mapFloats f) := by
  have hparse := Json.parse_print (carries_encodeResponse h hf 125)
  have hrange : (r.mapFloats f).InRange := by
    cases r with
    | pong addr status =>
      rintro s hs
      obtain ⟨t, ht, rfl⟩ := Option.map_eq_some_iff.mp hs
      exact ⟨(h t ht).1, (h t ht).2, (h t ht).3, (h t ht).4⟩
    | _ => exact h
  have htrim : Text.trim (String.ofList (Json.print codec (encodeResponse r) ++ ['\n'])) =
      String.ofList (Json.print codec (encodeResponse r)) := by
    refine trim_line ?_
    cases r <;> exact print_obj _
  rw [clientLine, messageBytes_eq, lineText_utf8]
  simp only [htrim, String.toList_ofList, hparse, Option.bind_some, encodeResponse_mapFloats,
    decodeResponse_encode hrange]

/-- The line a request arrives on, in whatever pieces, starts the service of that request. -/
theorem handleClient_message (request : Request) (complaint : String → String) (addr : BDAddr)
    {ε : Type} {s : Source UInt8 ε} {rest : List UInt8}
    (h : s.contents = messageBytes codec (encodeRequest request) ++ rest)
    (tape : List ServerAnswer) (log : List ServerObs) :
    handleClient (parseRequest codec complaint) addr ⟨.line (nextLine s) :: tape, log, ()⟩ =
      serveRequest addr request ⟨tape, log, ()⟩ := by
  have hline : (nextLine s).bind lineText =
      some (String.ofList (Json.print codec (encodeRequest request))) := by
    rw [nextLine_message h]
    exact lineText_utf8 _
  have hparse : parseRequest codec complaint
      (String.ofList (Json.print codec (encodeRequest request))) = .ok request :=
    parseRequest_line request complaint
  simp only [handleClient, bind, Await.await, ServerAnswer.asLine, hline, hparse]

/-- Responses that were written are read, in order, in whatever pieces they arrive. -/
theorem clientLines_written (rs : List Response) (h : ∀ r ∈ rs, r.InRange)
    (hf : ∀ r ∈ rs, ∀ x ∈ r.floats, codec.read (codec.write x) = some (f x))
    {s : Source UInt8 String}
    (hs : s.contents = rs.flatMap fun r => messageBytes codec (encodeResponse r)) :
    clientLines codec s =
      rs.map (fun r => .response (r.mapFloats f)) ++ [s.failure.elim .eof .failed] := by
  have hrows : s.contents =
      terminated 0x0A (rs.map fun r => messageLine codec (encodeResponse r)) := by
    rw [hs, terminated, List.flatMap_map]
    rfl
  have hlength : rs.length ≤ s.contents.length := by
    rw [hs]
    clear h hf hs hrows
    induction rs with
    | nil => simp
    | cons r rs ih =>
      simp only [List.flatMap_cons, List.length_append, List.length_cons, messageBytes] at ih ⊢
      omega
  have hread : Source.readLines 0x0A (s.contents.length + 1) s = _ :=
    Source.readLines_terminated (List.forall_mem_map.mpr fun r _ => newline_not_mem_messageLine _)
      hrows (by simpa using Nat.lt_succ_of_le hlength)
  simp only [clientLines, hread, List.map_map]
  refine congrArg (· ++ _) ?_
  refine List.map_congr_left fun r hr => ?_
  exact clientLine_response (h r hr) (hf r hr)

/-! ## A ping over the wire -/

/-- The run of a handler whose client asks for a ping. -/
theorem serveRequest_ping (addr : BDAddr) (gone : Bool) (stats : AgentStats) (now : Nat) :
    linesOf (serveRequest addr .ping ⟨[.actor gone stats now, .write true], [], ()⟩).2.log =
      [if gone then .error "agent actor is not running"
        else .pong (some (displayAddr addr)) (some (stats.snapshot now))] := by
  cases gone <;>
    simp [serveRequest, bind, Await.await, ServerAnswer.asActor, controlResponse, writeMessage,
      ServerAnswer.asWrite, Await.observe, pure, linesOf]

theorem bind_of_some {ι ω σ α β : Type} {x : Await ι ω σ β} {g : β → Await ι ω σ α}
    {s t : Stage ι ω σ} {b : β} (h : x s = (some b, t)) : (x >>= g) s = g b t := by
  simp only [bind, h]

/-- What a client that keeps the first response makes of it; an error is its own. -/
theorem readResponses_first (response : Response) (tape : List ClientAnswer)
    (log : List ClientObs) :
    readResponses (fun response => do
        Await.modify fun _ => some response
        pure true) ⟨.line (.response response) :: tape, log, none⟩ =
      match response with
      | .error message => (some (.error message), ⟨tape, log, none⟩)
      | response => (some (.ok ()), ⟨tape, log, some response⟩) := by
  rw [readResponses_eq _ fun _ =>
    Await.shrinks_bind (Await.shrinks_modify _) fun _ => Await.shrinks_pure _]
  cases response <;> rfl

/-- A client takes the first response for its answer, or for its error. -/
theorem request_answered {σ : Type} (req : Request) (paths : AgentPaths) (response : Response)
    (tape : List ClientAnswer) (log : List ClientObs) (st : σ) :
    request req paths ⟨.connect (.ok ()) :: .write (.ok ()) :: .line (.response response) :: tape,
      log, st⟩ =
      (some (match response with
        | .error message => .error message
        | response => .ok response), ⟨tape, log ++ [.sent req], st⟩) := by
  have hread := readResponses_first response tape (log ++ [.sent req])
  have hexecute : execute req paths (fun response => do
        Await.modify fun _ => some response
        pure true) ⟨.connect (.ok ()) :: .write (.ok ()) :: .line (.response response) :: tape, log,
      none⟩ = _ := hread
  unfold request
  cases response with
  | error message =>
    refine (bind_of_some (b := (.error message, none)) (t := ⟨tape, log ++ [.sent req], st⟩) ?_).trans
      rfl
    simp only [Await.withState, hexecute]
    rfl
  | _ =>
    refine (bind_of_some (b := (.ok (), some _)) (t := ⟨tape, log ++ [.sent req], st⟩) ?_).trans rfl
    simp only [Await.withState, hexecute]
    rfl

/-- An exchange as the two programs have it: the agent serves the request whose bytes it
reads, and the client reads the responses whose bytes the agent wrote. -/
theorem exchange_over_wire {ε : Type} (req : Request) (complaint : String → String)
    (addr : BDAddr) (tape : List ServerAnswer) (atAgent : Source UInt8 ε) (rest : List UInt8)
    (hagent : atAgent.contents = messageBytes codec (encodeRequest req) ++ rest)
    (hrange : ∀ r ∈ linesOf (serveRequest addr req ⟨tape, [], ()⟩).2.log, r.InRange)
    (hf : ∀ r ∈ linesOf (serveRequest addr req ⟨tape, [], ()⟩).2.log,
      ∀ x ∈ r.floats, codec.read (codec.write x) = some (f x))
    (atClient : Source UInt8 String)
    (hclient : atClient.contents =
      (linesOf (handleClient (parseRequest codec complaint) addr
        ⟨.line (nextLine atAgent) :: tape, [], ()⟩).2.log).flatMap
          fun r => messageBytes codec (encodeResponse r)) :
    clientLines codec atClient =
      (linesOf (serveRequest addr req ⟨tape, [], ()⟩).2.log).map
        (fun r => .response (r.mapFloats f)) ++ [atClient.failure.elim .eof .failed] := by
  rw [handleClient_message req complaint addr hagent] at hclient
  exact clientLines_written _ hrange hf hclient

/-- A ping as the two programs have it: the agent reads the bytes the client wrote, the
client reads the bytes the agent wrote, in whatever pieces they arrive. -/
theorem ping_over_wire {σ ε : Type} (complaint : String → String)
    (parseAddr : String → Except String BDAddr) (paths : AgentPaths) (addr : BDAddr)
    (gone : Bool) (stats : AgentStats) (now : Nat) (st : σ)
    (haddr : parseAddr (displayAddr addr) = .ok addr) (hstats : (stats.snapshot now).InRange)
    (hf : ∀ x ∈ (stats.snapshot now).floats, codec.read (codec.write x) = some (f x))
    (atAgent : Source UInt8 ε) (hagent : atAgent.contents = messageBytes codec (encodeRequest .ping))
    (atClient : Source UInt8 String)
    (hclient : atClient.contents =
      (linesOf (handleClient (parseRequest codec complaint) addr
        ⟨[.line (nextLine atAgent), .actor gone stats now, .write true], [], ()⟩).2.log).flatMap
          fun r => messageBytes codec (encodeResponse r)) :
    (ping parseAddr paths ⟨.connect (.ok ()) :: .write (.ok ()) ::
      (clientLines codec atClient).map .line, [], st⟩).1 =
      some (if gone then .error "agent actor is not running"
        else .ok ⟨some addr, some ((stats.snapshot now).mapFloats f)⟩) := by
  have hline : atAgent.contents = messageBytes codec (encodeRequest .ping) ++ [] := by
    rw [hagent, List.append_nil]
  rw [handleClient_message .ping complaint addr hline, serveRequest_ping] at hclient
  cases gone with
  | true =>
    have hlines := clientLines_written (f := f) [.error "agent actor is not running"]
      (by simp [Response.InRange]) (by simp [Response.floats]) hclient
    simp [hlines, Response.mapFloats, ping, bind, Await.timeout, request_answered, pure]
  | false =>
    have hlines := clientLines_written (f := f)
      [.pong (some (displayAddr addr)) (some (stats.snapshot now))]
      (by simpa [Response.InRange] using hstats) (by simpa [Response.floats] using hf) hclient
    simp [hlines, Response.mapFloats, ping, bind, Await.timeout, request_answered, pure, readPong,
      haddr]

end

/-! ## With a library that is exact -/

/-- A feed of one measurement, after which the channel ends. -/
def feed : List ServerAnswer :=
  [.actor false (.new 0 1000000000 none) 5, .send true,
    .recv (some (.measurement 100 (1 / 2) 50 1 1609304963)), .write true, .recv none]

theorem exchange_over_wire_feed :
    let atAgent : Source UInt8 String :=
      ⟨[], [messageBytes F64.codec (encodeRequest .subscribe)], none⟩
    let written := (linesOf (handleClient (parseRequest F64.codec id) 0xCBDF6B123456#48
      ⟨.line (nextLine atAgent) :: feed, [], ()⟩).2.log).flatMap
        fun r => messageBytes F64.codec (encodeResponse r)
    clientLines F64.codec ⟨written.take 9, [written.drop 9], none⟩ =
      [.response (.measurement 100 (1 / 2) 50 1 1609304963), .eof] := by
  have hlines : linesOf (serveRequest 0xCBDF6B123456#48 .subscribe ⟨feed, [], ()⟩).2.log =
      [.measurement 100 (1 / 2) 50 1 1609304963] := by decide +kernel
  have hfloat : ∀ x ∈ [(100 : ℚ), 1 / 2, 50, 1], F64.IsFloat x := by
    simp only [List.forall_mem_cons, List.not_mem_nil, false_imp_iff, implies_true, and_true]
    exact ⟨by simpa using F64.isFloat_natCast (m := 100) (by decide),
      by simpa using F64.isFloat_div_pow (m := 1) (by decide) 1,
      by simpa using F64.isFloat_natCast (m := 50) (by decide),
      by simpa using F64.isFloat_natCast (m := 1) (by decide)⟩
  have hrange : ∀ x ∈ [(100 : ℚ), 1 / 2, 50, 1], x < 2 ^ 1024 := by decide +kernel
  intro atAgent written
  have hexchange := @exchange_over_wire F64.codec id String .subscribe id 0xCBDF6B123456#48 feed
    atAgent [] (by simp [atAgent, Source.contents]) (by rw [hlines]; simp [Response.InRange])
    (by
      rw [hlines]
      simp only [List.forall_mem_cons, List.not_mem_nil, false_imp_iff, implies_true, and_true]
      exact fun x hx => F64.read_write (hfloat x hx) (hrange x hx))
    ⟨written.take 9, [written.drop 9], none⟩ (by simp [Source.contents, written])
  rw [hexchange, hlines]
  rfl

/-- How a fresh agent answers over the wire. -/
theorem ping_over_wire_fresh :
    let stats := AgentStats.new 0 1000000000 none
    let atAgent : Source UInt8 String :=
      ⟨messageBytes F64.codec (encodeRequest .ping), [], none⟩
    let written := (linesOf (handleClient (parseRequest F64.codec id) 0xCBDF6B123456#48
      ⟨[.line (nextLine atAgent), .actor false stats 0, .write true], [], ()⟩).2.log).flatMap
        fun r => messageBytes F64.codec (encodeResponse r)
    (ping (fun _ => .ok 0xCBDF6B123456#48) ⟨"a.sock"⟩
      ⟨.connect (.ok ()) :: .write (.ok ()) ::
        (clientLines F64.codec ⟨[], [written], none⟩).map .line, [], ()⟩).1 =
      some (.ok ⟨some 0xCBDF6B123456#48, some (stats.snapshot 0)⟩) := by
  intro stats atAgent written
  have hsecond : F64.IsFloat (asSecsF64 1000000000) := F64.isFloat_round _
  have hrange : asSecsF64 1000000000 < 2 ^ 1024 := by decide +kernel
  exact @ping_over_wire F64.codec id Unit String id (fun _ => .ok 0xCBDF6B123456#48) ⟨"a.sock"⟩
    0xCBDF6B123456#48 false stats 0 () rfl ⟨by decide, by decide, by decide, by decide⟩
    (by
      simp only [AgentStatus.floats, AgentStats.snapshot, stats, AgentStats.new, List.mem_cons]
      rintro x (rfl | hx)
      · exact F64.read_write hsecond hrange
      · cases hx)
    atAgent (by simp [atAgent, Source.contents]) ⟨[], [written], none⟩
    (by simp [Source.contents, written])

end Wire

end Btwattch2
