import Roster.Bytes.Utf8
import Roster.Config
import Roster.Toml.Document

/-!
# Configuration files

A configuration file is a TOML document with one entry per setting.  Entries that are missing
leave the default, and entries that name no setting are ignored.  Writing gives all settings in
a fixed order, and refuses integers that TOML cannot hold.
-/

namespace Roster
namespace Config

open Toml

/-! # Reading -/

/-- An integer entry below `range`, or the default where there is no entry. -/
def readNat (entries : Entries) (key : String) (range default : Nat) : Except Fault Nat :=
  match entries.lookup? key with
  | none => .ok default
  | some (.integer n) => if 0 ≤ n ∧ n < range then .ok n.toNat else .error .malformed
  | some _ => .error .malformed

def readUInt64 (entries : Entries) (key : String) (default : UInt64) : Except Fault UInt64 :=
  (readNat entries key UInt64.size default.toNat).map UInt64.ofNat

def readUInt32 (entries : Entries) (key : String) (default : UInt32) : Except Fault UInt32 :=
  (readNat entries key UInt32.size default.toNat).map UInt32.ofNat

def readText (entries : Entries) (key default : String) : Except Fault String :=
  match entries.lookup? key with
  | none => .ok default
  | some (.text s) => .ok s
  | some _ => .error .malformed

def ofEntries (entries : Entries) : Except Fault Config := do
  let standard : Config := {}
  return {
    heartbeatSecs := ← readUInt64 entries "heartbeat_interval_secs" standard.heartbeatSecs
    settleMillis := ← readUInt64 entries "settle_delay_millis" standard.settleMillis
    settleAttempts := ← readUInt32 entries "max_settle_attempts" standard.settleAttempts
    backoffBaseMillis := ← readUInt64 entries "backoff_base_millis" standard.backoffBaseMillis
    backoffMaxMillis := ← readUInt64 entries "backoff_max_millis" standard.backoffMaxMillis
    freshnessSecs := ← readUInt64 entries "freshness_window_secs" standard.freshnessSecs
    cookieName := ← readText entries "tracking_cookie_name" standard.cookieName
    serverRegion := ← readText entries "server_region" standard.serverRegion
    userRegion := ← readText entries "tracking_region" standard.userRegion }

def parse (text : List Char) : Except Fault Config :=
  match Document.read? text with
  | none => .error .malformed
  | some entries => do
      let config ← ofEntries entries
      config.validate
      return config

inductive Contents where
  | missing
  | bytes (bytes : Bytes)

def missingFile : String := "No such file or directory (os error 2)"

def load : Contents → Except Fault Config
  | .missing => .error (.unreadable missingFile)
  | .bytes bytes =>
      match Utf8.decode bytes with
      | .error _ => .error (.unreadable "stream did not contain valid UTF-8")
      | .ok text => parse text.toList

/-! # Writing -/

inductive Setting where
  | number (key : String) (value : Nat)
  | text (key : String) (value : String)

def settings (c : Config) : List Setting :=
  [ .number "heartbeat_interval_secs" c.heartbeatSecs.toNat,
    .number "settle_delay_millis" c.settleMillis.toNat,
    .number "max_settle_attempts" c.settleAttempts.toNat,
    .number "backoff_base_millis" c.backoffBaseMillis.toNat,
    .number "backoff_max_millis" c.backoffMaxMillis.toNat,
    .number "freshness_window_secs" c.freshnessSecs.toNat,
    .text "tracking_cookie_name" c.cookieName,
    .text "server_region" c.serverRegion,
    .text "tracking_region" c.userRegion ]

namespace Setting

def fits : Setting → Bool
  | number _ value => (value : Int) ≤ maxInteger
  | text _ _ => true

def line : Setting → List Char
  | number key value => key.toList ++ " = ".toList ++ Text.decimal value ++ ['\n']
  | text key value => key.toList ++ " = ".toList ++ Quoted.write value.toList ++ ['\n']

end Setting

def write (c : Config) : Except Fault (List Char) :=
  if c.settings.all Setting.fits then .ok (c.settings.flatMap Setting.line)
  else .error .unserializable

def save (c : Config) (directoryExists : Bool) : Except Fault (List Char) := do
  let text ← c.write
  if directoryExists then return text else throw (.unwritable missingFile)

end Config
end Roster
