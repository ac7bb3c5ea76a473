/-
Btwattch2.ScanTheorems — what a scan lists.

A device is asked until it has given its name, and no further. So a scan knows
of an RSSI exactly when one was reported before that, or together with the name
(`rssi_found`), and it is complete exactly when that is no loss
(`complete_iff`). The name itself is never missed.
-/
import Btwattch2.Scan

namespace Btwattch2

open Lib

/-! ## One device -/

/-- What a device said of itself over all the rounds, in order. -/
def deviceReports (rounds : List Round) (addr : BDAddr) : List PeripheralProperties :=
  Memo.reportsOf addr rounds.flatten

def PeripheralProperties.named (props : PeripheralProperties) : Bool := props.localName.isSome

def PeripheralProperties.advertised (props : PeripheralProperties) : Bool := props.rssi.isSome

/-- The reports of a device that are read: through the first that gives a name. -/
def readReports (rounds : List Round) (addr : BDAddr) : List PeripheralProperties :=
  Memo.through PeripheralProperties.named (deviceReports rounds addr)

theorem mem_deviceReports {rounds : List Round} {addr : BDAddr} {props : PeripheralProperties} :
    props ∈ deviceReports rounds addr ↔ ∃ round ∈ rounds, (addr, some props) ∈ round := by
  simp only [deviceReports, Memo.reportsOf, List.mem_filterMap, List.mem_flatten]
  constructor
  · rintro ⟨⟨a, report⟩, ⟨round, hround, hmem⟩, hreport⟩
    split at hreport
    case isTrue heq =>
      obtain rfl : a = addr := heq
      obtain rfl : report = some props := hreport
      exact ⟨round, hround, hmem⟩
    case isFalse => cases hreport
  · rintro ⟨round, hround, hmem⟩
    exact ⟨_, ⟨round, hround, hmem⟩, by simp⟩

/-- The rounds run together are one pass over all the reports. -/
theorem pollDevices_eq (rounds : List Round) :
    pollDevices rounds = Memo.visitAll mergeProperties hasName (none, none) ∅ rounds.flatten := by
  rw [pollDevices, Memo.visitAll, List.foldl_flatten]
  rfl

/-- What is found of a device is the merge of the reports of it that are read. -/
theorem lookup_pollDevices (rounds : List Round) (addr : BDAddr) :
    (pollDevices rounds).lookup addr =
      if deviceReports rounds addr = [] then none
      else some ((readReports rounds addr).foldl mergeProperties (none, none)) := by
  have hdone : ∀ known props, hasName (mergeProperties known props) =
      (hasName known || PeripheralProperties.named props) := by
    rintro ⟨name, rssi⟩ ⟨localName, rssi'⟩
    cases localName <;> simp [hasName, mergeProperties, PeripheralProperties.named]
  rw [pollDevices_eq]
  exact Memo.lookup_visitAll_empty mergeProperties hasName (none, none) rfl hdone _ addr

theorem isSome_fst_foldl (props : List PeripheralProperties)
    (known : Option String × Option Int16) :
    (props.foldl mergeProperties known).1.isSome =
      (known.1.isSome || props.any PeripheralProperties.named) := by
  induction props generalizing known with
  | nil => simp
  | cons p props ih =>
    rw [List.foldl_cons, ih]
    cases h : p.localName <;> simp [mergeProperties, PeripheralProperties.named, h]

theorem isSome_snd_foldl (props : List PeripheralProperties)
    (known : Option String × Option Int16) :
    (props.foldl mergeProperties known).2.isSome =
      (known.2.isSome || props.any PeripheralProperties.advertised) := by
  induction props generalizing known with
  | nil => simp
  | cons p props ih =>
    rw [List.foldl_cons, ih]
    cases h : p.rssi <;> simp [mergeProperties, PeripheralProperties.advertised, h]

/-! ## The list -/

theorem mem_scan {rounds : List Round} {device : ScannedDevice} :
    device ∈ scan rounds ↔
      (pollDevices rounds).lookup device.addr = some (device.name, some device.rssi) := by
  rw [scan, List.mem_filterMap]
  constructor
  · rintro ⟨⟨addr, name, rssi⟩, hmem, hdevice⟩
    cases rssi with
    | none => cases hdevice
    | some rssi =>
      cases hdevice
      exact AList.mem_lookup_iff.mpr hmem
  · intro hlookup
    exact ⟨⟨device.addr, device.name, some device.rssi⟩, AList.mem_lookup_iff.mp hlookup, rfl⟩

/-- A device is listed when a report of it that is read has an RSSI. -/
theorem rssi_found {rounds : List Round} {addr : BDAddr} :
    addr ∈ (scan rounds).map ScannedDevice.addr ↔
      ∃ props ∈ readReports rounds addr, props.advertised = true := by
  have hany := isSome_snd_foldl (readReports rounds addr) (none, none)
  simp only [Option.isSome_none, Bool.false_or] at hany
  rw [List.mem_map, ← List.any_eq_true, ← hany]
  constructor
  · rintro ⟨device, hdevice, rfl⟩
    rw [mem_scan, lookup_pollDevices] at hdevice
    split at hdevice
    · cases hdevice
    · rw [Option.some.inj hdevice]
      rfl
  · intro hrssi
    obtain ⟨rssi, hrssi⟩ := Option.isSome_iff_exists.mp hrssi
    refine ⟨⟨addr, ((readReports rounds addr).foldl mergeProperties (none, none)).1, rssi⟩, ?_, rfl⟩
    have hreports : deviceReports rounds addr ≠ [] := by
      intro hnil
      simp [readReports, hnil, Memo.through] at hrssi
    rw [mem_scan, lookup_pollDevices, if_neg hreports, ← hrssi]

/-- No device is listed twice. -/
theorem nodup_scan (rounds : List Round) : ((scan rounds).map ScannedDevice.addr).Nodup := by
  have hkeys : ((pollDevices rounds).entries.map Sigma.fst).Nodup := (pollDevices rounds).nodupKeys
  refine hkeys.sublist ?_
  rw [scan]
  induction (pollDevices rounds).entries with
  | nil => exact List.Sublist.refl _
  | cons entry entries ih =>
    obtain ⟨addr, name, rssi⟩ := entry
    cases rssi with
    | none => exact ih.cons _
    | some rssi => exact ih.cons_cons _

/-- A device that is listed has a name if it ever gave one. -/
theorem name_found {rounds : List Round} {device : ScannedDevice} (h : device ∈ scan rounds) :
    device.name.isSome = (deviceReports rounds device.addr).any PeripheralProperties.named := by
  rw [mem_scan, lookup_pollDevices] at h
  split at h
  · cases h
  · have hname := isSome_fst_foldl (readReports rounds device.addr) (none, none)
    rw [Option.some.inj h] at hname
    rw [hname, Option.isSome_none, Bool.false_or, Bool.eq_iff_iff, List.any_eq_true,
      List.any_eq_true]
    exact Memo.exists_through_iff

/-! ## Completeness -/

/-- A scan lists every device that had an RSSI in some round, and no other, each
once, and with a name if some round reported one. -/
structure Complete (rounds : List Round) (devices : List ScannedDevice) : Prop where
  listed : ∀ addr, addr ∈ devices.map ScannedDevice.addr ↔
    ∃ round ∈ rounds, ∃ props, (addr, some props) ∈ round ∧ props.rssi.isSome
  once : (devices.map ScannedDevice.addr).Nodup
  named : ∀ device ∈ devices, (∃ round ∈ rounds, ∃ props,
    (device.addr, some props) ∈ round ∧ props.localName.isSome) → device.name.isSome

/-- No device reports its first RSSI only after it has reported a name. -/
def HeardInTime (rounds : List Round) : Prop :=
  ∀ addr, (∃ props ∈ deviceReports rounds addr, props.advertised = true) →
    ∃ props ∈ readReports rounds addr, props.advertised = true

theorem exists_report_iff {rounds : List Round} {addr : BDAddr} {p : PeripheralProperties → Prop} :
    (∃ round ∈ rounds, ∃ props, (addr, some props) ∈ round ∧ p props) ↔
      ∃ props ∈ deviceReports rounds addr, p props := by
  simp only [mem_deviceReports]
  constructor
  · rintro ⟨round, hround, props, hmem, hp⟩
    exact ⟨props, ⟨round, hround, hmem⟩, hp⟩
  · rintro ⟨props, ⟨round, hround, hmem⟩, hp⟩
    exact ⟨round, hround, props, hmem, hp⟩

/-- **When a scan is complete**: exactly when no device reports its first RSSI
only after it has reported a name. -/
theorem scan_complete_iff (rounds : List Round) :
    Complete rounds (scan rounds) ↔ HeardInTime rounds := by
  constructor
  · intro hcomplete addr hadvertised
    refine rssi_found.mp ((hcomplete.listed addr).mpr ?_)
    exact exists_report_iff.mpr hadvertised
  · intro hheard
    refine ⟨fun addr => ?_, nodup_scan rounds, fun device hdevice hnamed => ?_⟩
    · rw [rssi_found, exists_report_iff]
      constructor
      · rintro ⟨props, hmem, hadvertised⟩
        exact ⟨props, Memo.through_sublist.subset hmem, hadvertised⟩
      · exact hheard addr
    · rw [name_found hdevice, List.any_eq_true]
      exact exists_report_iff.mp hnamed

/-- A device the adapter remembers by name comes into range after the first round. -/
def remembered : List Round :=
  [[(0xCBDF6B123456#48, some ⟨some "BTWATTCH2", none⟩)],
    [(0xCBDF6B123456#48, some ⟨some "BTWATTCH2", some (-60)⟩)]]

/-- It is not listed, though the second round has its RSSI. -/
theorem scan_not_complete : ¬ Complete remembered (scan remembered) := by
  intro hcomplete
  have hlisted := (hcomplete.listed 0xCBDF6B123456#48).mpr
    ⟨[(0xCBDF6B123456#48, some ⟨some "BTWATTCH2", some (-60)⟩)], by simp [remembered], _,
      List.mem_singleton.mpr rfl, rfl⟩
  revert hlisted
  decide +kernel

end Btwattch2
