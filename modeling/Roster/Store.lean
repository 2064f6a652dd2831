import Std.Data.TreeMap.Basic
import Roster.Proc

/-!
# Stores in memory

A store keeps values under a region and a key, each with the time of its last writing.  With a
time to live, a value that has not been written again for longer than that is gone; it is swept
out when its region is next used.  A store can be switched off, and then refuses every call.

Times are milliseconds since some start, and never go back.
-/

namespace Roster

structure Stored.Value where
  bytes : Bytes
  writtenAt : Nat

abbrev Stored.Values := Std.TreeMap String Stored.Value compare

structure Store where
  regions : Std.TreeMap String Stored.Values compare := ∅
  /-- Milliseconds for which a value lives without being written again. -/
  timeToLive : Option Nat := none
  available : Bool := true

namespace Store

def offline : String := "registry offline"

/-- The values of a region that live. -/
def live (store : Store) (now : Nat) (region : String) : Stored.Values :=
  let values := store.regions.getD region ∅
  match store.timeToLive with
  | none => values
  | some ttl => values.filter fun _ value => now - value.writtenAt ≤ ttl

def setValues (store : Store) (region : String) (values : Stored.Values) : Store :=
  { store with regions := store.regions.insert region values }

/-- Answers a call at a time. -/
def answer (store : Store) (now : Nat) (call : Call) :
    Except RegistryError call.Answer × Store :=
  if !store.available then (.error (.unavailable call.region offline), store)
  else
    let values := store.live now call.region
    match call with
    | .get region key => (.ok (values[key]?.map (·.bytes)), store.setValues region values)
    | .put region key bytes =>
        (.ok (values[key]?.map (·.bytes)),
          store.setValues region (values.insert key { bytes, writtenAt := now }))
    | .remove region key =>
        (.ok (values[key]?.map (·.bytes)), store.setValues region (values.erase key))
    | .list region => (.ok (values.toList.map (·.2.bytes)), store.setValues region values)

/-- Number of living values of a region, also when the store is switched off. -/
def count (store : Store) (now : Nat) (region : String) : Nat :=
  (store.live now region).size

def isEmpty (store : Store) (now : Nat) (region : String) : Bool :=
  store.count now region == 0

end Store
end Roster
