/-
Btwattch2.Scan — scanning for nearby devices (`Connection::scan` and
`poll_devices` of `connection.rs`).

A round of the polling goes through the adapter's list of devices and asks each
for its properties. What a device would answer if it were asked is given with
the list, round by round; whether it is asked is up to `pollDevices`.
-/
import Btwattch2.Lib.Memo
import Btwattch2.Cli

namespace Btwattch2

open Lib

/-- What a device says of itself when it is asked. -/
structure PeripheralProperties where
  localName : Option String
  rssi : Option Int16
  deriving DecidableEq

/-- The devices the adapter lists in one round, each with what `properties()`
answers. -/
abbrev Round := List (BDAddr × Option PeripheralProperties)

/-- A device discovered during a scan. -/
structure ScannedDevice where
  addr : BDAddr
  name : Option String
  rssi : Int16
  deriving DecidableEq

/-- Name and RSSI of every device seen so far. -/
abbrev Found := Table BDAddr (Option String × Option Int16)

/-- What a report says replaces what is known; what it does not say is kept. -/
def mergeProperties (known : Option String × Option Int16) (props : PeripheralProperties) :
    Option String × Option Int16 :=
  (props.localName.or known.1, props.rssi.or known.2)

/-- A device that has a name is not asked again. -/
def hasName (known : Option String × Option Int16) : Bool := known.1.isSome

/-- Re-read the adapter's device list, round after round, merging what each
reports. -/
def pollDevices (rounds : List Round) : Found :=
  rounds.foldl (Memo.visitAll mergeProperties hasName (none, none)) ∅

/-- The devices that advertised an RSSI at some point, by what was found. -/
def scan (rounds : List Round) : List ScannedDevice :=
  (pollDevices rounds).entries.filterMap fun entry =>
    entry.2.2.map fun rssi => { addr := entry.1, name := entry.2.1, rssi }

end Btwattch2
